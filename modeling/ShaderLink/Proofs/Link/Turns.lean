import Mathlib.Algebra.Order.BigOperators.Group.Finset
import ShaderLink.Proofs.Link.Composition

/-!
# The turns that a walk takes

A walk looks at its stack again and again, and each time that it finds a module there it takes a turn: it
moves, or it fails. Imports may form cycles, and they may form far more paths than there are modules.
Still a walk takes few turns, because it follows each module once: whatever the paths, a module costs one
turn for each of its imports and one to be placed.

**The law** (`walkLaws_of_registered`): in every state that a walk from a registered entry point goes
through, its marks, its stack and its order agree (`Walk.Agrees`), no module comes on the stack twice,
and the walk ends after at most the turns that the modules reached from the entry point cost together.

The count follows the stack. Each turn takes one from what the modules on the stack have left to do, and
only a module that comes on it adds to that (`Walk.Moves.account`). Those modules are met for the first
time, so none of them is counted again (`Walk.entered_fresh`).

**What it does not establish.** A turn looks up a name and a mark; what a look-up takes is not counted.
-/

set_option autoImplicit false

namespace ShaderLink.Link

/-! ## The states of a walk -/

namespace Walk

variable {r : Registry} {w w' : Walk}

/-- **The states that a walk goes through**, from this one to the one that is finished or fails. -/
def states (r : Registry) (w : Walk) : List Walk :=
  match _h : w.step r with
  | .finished _ => [w]
  | .failed _ => [w]
  | .moved w' => w :: w'.states r
termination_by w.cost r
decreasing_by exact cost_lt_of_step _h

/-- The turns that a walk takes: the states in which a module stands on its stack. -/
def turns (r : Registry) (w : Walk) : Nat :=
  (w.states r).countP fun v => !v.stack.isEmpty

/-- The module that comes on the stack from one state to the next, if the stack grows. -/
def entered? (w w' : Walk) : Option Module :=
  if w.stack.length < w'.stack.length then w'.stack.head?.map (·.owner) else none

/-- The modules that come on the stack from state to state. -/
def entered : List Walk → List Module
  | [] => []
  | [_] => []
  | w :: w' :: rest => (entered? w w').toList ++ entered (w' :: rest)

theorem states_finished {order : Array Module} (h : w.step r = .finished order) :
    w.states r = [w] := by
  rw [states, h]

theorem states_failed {e : BuildError} (h : w.step r = .failed e) : w.states r = [w] := by
  rw [states, h]

theorem states_moved (h : w.step r = .moved w') : w.states r = w :: w'.states r := by
  rw [states, h]

/-- The first state of a walk is the one that it starts in. -/
theorem exists_states_eq (r : Registry) (w : Walk) : ∃ rest, w.states r = w :: rest := by
  cases h : w.step r with
  | finished order => exact ⟨_, states_finished h⟩
  | failed e => exact ⟨_, states_failed h⟩
  | moved w' => exact ⟨_, states_moved h⟩

theorem runs_of_mem_states {v : Walk} (h : v ∈ w.states r) : Runs r w v := by
  induction w using states.induct (r := r) with
  | case1 w order hstep =>
    rw [states_finished hstep, List.mem_singleton] at h
    rw [h]
    exact .refl
  | case2 w e hstep =>
    rw [states_failed hstep, List.mem_singleton] at h
    rw [h]
    exact .refl
  | case3 w w' hstep ih =>
    rw [states_moved hstep] at h
    rcases List.mem_cons.1 h with rfl | h
    · exact .refl
    · exact .head (moves_of_step hstep) (ih h)

/-- **The last state of a walk** is the one in which it is finished or fails. -/
theorem exists_getLast?_states (r : Registry) (w : Walk) :
    ∃ last, (w.states r).getLast? = some last ∧
      ((last.stack = [] ∧ w.run r = .ok last.order) ∨
        ∃ e, last.step r = .failed e ∧ w.run r = .error e) := by
  induction w using states.induct (r := r) with
  | case1 w order h =>
    obtain ⟨hs, rfl⟩ := stack_of_step h
    exact ⟨w, by rw [states_finished h]; rfl, .inl ⟨hs, run_finished h⟩⟩
  | case2 w e h => exact ⟨w, by rw [states_failed h]; rfl, .inr ⟨e, h, run_failed h⟩⟩
  | case3 w w' h ih =>
    obtain ⟨last, hlast, hrun⟩ := ih
    refine ⟨last, ?_, by rwa [run_moved h]⟩
    rw [states_moved h, List.getLast?_cons, hlast]
    rfl

end Walk

/-! ## The frames on the stack -/

/-- The imports that a frame has consumed, those before the pending ones. -/
def Frame.consumed (f : Frame) : List String :=
  f.owner.imports.take (f.owner.imports.length - f.pending.length)

/-- **A frame stands at an index** of its module's imports or behind their end: what is before it is
consumed, and the rest is pending. -/
def Frame.Indexed (f : Frame) : Prop :=
  ∃ next ≤ f.owner.imports.length,
    f.consumed = f.owner.imports.take next ∧ f.pending = f.owner.imports.drop next

variable {f : Frame} {done : List String}

theorem Frame.consumed_eq (h : f.owner.imports = done ++ f.pending) : f.consumed = done := by
  simp [Frame.consumed, h]

theorem Frame.indexed (h : f.owner.imports = done ++ f.pending) : f.Indexed := by
  refine ⟨done.length, by simp [h], ?_, by simp [h]⟩
  rw [Frame.consumed_eq h, h, List.take_left]

variable {r : Registry} {entry n : String} {placed rest : List String} {m : Module}
  {below : List Frame}

theorem Consumed.indexed (h : Consumed placed m rest) : (Frame.mk m rest).Indexed := by
  obtain ⟨done, himports, -⟩ := h
  exact Frame.indexed himports

theorem Consumed.consumed_subset (h : Consumed placed m rest) :
    (Frame.mk m rest).consumed ⊆ placed := by
  obtain ⟨done, himports, hdone⟩ := h
  rw [Frame.consumed_eq himports]
  exact hdone

/-- A frame has consumed `n` last, and all that it consumed before is placed. -/
def Frame.LeadsTo (placed : List String) (n : String) (f : Frame) : Prop :=
  f.consumed.getLast? = some n ∧ f.consumed.dropLast ⊆ placed

/-- What a frame has at hand it consumes last. -/
theorem Consumed.leadsTo (h : Consumed placed m (n :: rest)) :
    (Frame.mk m rest).Indexed ∧ (Frame.mk m rest).LeadsTo placed n := by
  obtain ⟨done, himports, hdone⟩ := h
  have split : m.imports = (done ++ [n]) ++ rest := by simp [himports]
  rw [Frame.LeadsTo, Frame.consumed_eq split, List.getLast?_concat, List.dropLast_concat]
  exact ⟨Frame.indexed split, rfl, hdone⟩

namespace Trail

/-- Each frame of a path leads to the module above it. -/
theorem isChain (h : Trail r entry placed m below) (rest : List String) :
    (Frame.mk m rest :: below).IsChain fun f g => g.LeadsTo placed f.owner.name := by
  induction h generalizing rest with
  | first _ => exact .singleton _
  | @next m d rest' below _ _ hconsumed ih => exact .cons_cons hconsumed.leadsTo.2 (ih rest')

theorem forall_below (h : Trail r entry placed m below) :
    ∀ f ∈ below, r.get? f.owner.name = some f.owner ∧ f.Indexed := by
  induction h with
  | first _ => simp
  | next hbelow _ hconsumed ih =>
    exact List.forall_mem_cons.2 ⟨⟨hbelow.held, hconsumed.leadsTo.1⟩, ih⟩

/-- A path begins at the entry point. -/
theorem getLast?_eq (h : Trail r entry placed m below) (rest : List String) :
    ∀ f ∈ (Frame.mk m rest :: below).getLast?, r.get? entry = some f.owner := by
  induction h generalizing rest with
  | first hm => simpa using hm
  | @next m d rest' below _ _ _ ih => simpa using ih rest'

end Trail

/-! ## Marks, stack and order -/

namespace Walk

/-- **The marks, the stack and the order of a walk agree.** -/
structure Agrees (r : Registry) (entry : String) (w : Walk) : Prop where
  /-- The modules on the stack are registered and pairwise distinct, -/
  held : ∀ f ∈ w.stack, r.get? f.owner.name = some f.owner
  following_nodup : w.following.Nodup
  /-- and are those that are marked as visiting. -/
  visiting : ∀ n, w.marks[n]? = some .visiting ↔ n ∈ w.following
  /-- The entry point is at the bottom, -/
  bottom : ∀ f ∈ w.stack.getLast?, f.owner.name = entry
  /-- and each other module is the import that the one below it consumed last. -/
  leads : w.stack.IsChain fun f g => g.consumed.getLast? = some f.owner.name
  indexed : ∀ f ∈ w.stack, f.Indexed
  /-- The modules in the order are those that are marked as resolved, each there once and none of
  them on the stack. -/
  resolved : ∀ n, w.marks[n]? = some .resolved ↔ n ∈ w.placed
  placed_nodup : w.placed.Nodup
  disjoint : w.following.Disjoint w.placed
  /-- What the topmost module has consumed is resolved, -/
  top : ∀ f ∈ w.stack.head?, ∀ n ∈ f.consumed, w.marks[n]? = some .resolved
  /-- what each other one has consumed before the module above it, -/
  below : w.stack.IsChain fun _ g => ∀ n ∈ g.consumed.dropLast, w.marks[n]? = some .resolved
  /-- and all that a module in the order imports. -/
  closed : ∀ m ∈ w.order.toList, ∀ n ∈ m.imports, w.marks[n]? = some .resolved

variable {w w' : Walk}

namespace Sound

theorem forall_stack (h : w.Sound r entry) :
    ∀ f ∈ w.stack, r.get? f.owner.name = some f.owner ∧ f.Indexed := by
  cases h.stands with
  | done hs _ => simp [hs]
  | on hs htrail hconsumed =>
    rw [hs]
    exact List.forall_mem_cons.2 ⟨⟨htrail.held, hconsumed.indexed⟩, htrail.forall_below⟩

theorem isChain (h : w.Sound r entry) :
    w.stack.IsChain fun f g => g.LeadsTo w.placed f.owner.name := by
  cases h.stands with
  | done hs _ => simp [hs]
  | on hs htrail _ =>
    rw [hs]
    exact htrail.isChain _

theorem name_of_getLast? (h : w.Sound r entry) : ∀ f ∈ w.stack.getLast?, f.owner.name = entry := by
  cases h.stands with
  | done hs _ => simp [hs]
  | on hs htrail _ =>
    rw [hs]
    exact fun f hf => Registry.name_of_get? (htrail.getLast?_eq _ f hf)

theorem consumed_subset (h : w.Sound r entry) : ∀ f ∈ w.stack.head?, f.consumed ⊆ w.placed := by
  cases h.stands with
  | done hs _ => simp [hs]
  | on hs _ hconsumed =>
    rw [hs]
    intro f hf
    obtain rfl := Option.some.inj hf
    exact hconsumed.consumed_subset

theorem imports_subset (h : w.Sound r entry) : ∀ m ∈ w.order.toList, m.imports ⊆ w.placed :=
  fun m hm _ hn => h.before.closed (fun d hd => (h.needed d hd).1) (List.mem_map_of_mem hm)
    (Registry.imports_of_mem (h.needed m hm).1 hn)

/-- **In a sound walk all agrees.** -/
theorem agrees (h : w.Sound r entry) : w.Agrees r entry where
  held f hf := (h.forall_stack f hf).1
  following_nodup := h.following_nodup
  visiting := h.visiting
  bottom := h.name_of_getLast?
  leads := h.isChain.imp fun _ _ hleads => hleads.1
  indexed f hf := (h.forall_stack f hf).2
  resolved := h.resolved
  placed_nodup := h.placed_nodup
  disjoint _ := h.not_mem_placed
  top f hf n hn := (h.resolved n).2 (h.consumed_subset f hf hn)
  below := h.isChain.imp fun _ _ hleads n hn => (h.resolved n).2 (hleads.2 hn)
  closed m hm n hn := (h.resolved n).2 (h.imports_subset m hm hn)

end Sound

/-! ## The account -/

/-- A module that is met stays met. -/
theorem Moves.unmet {k : String} (h : Moves r w w') (unmet : w'.marks[k]?.isNone = true) :
    w.marks[k]?.isNone = true := by
  cases h with
  | place _ => exact isNone_of_insert unmet
  | pass _ _ _ => exact unmet
  | enter _ _ _ => exact isNone_of_insert unmet

/-- **What a turn does to the account**: it takes one from what the modules on the stack have left to
do, and a module that it puts there, which is met for the first time, adds its own cost. -/
theorem Moves.account (h : Moves r w w') :
    (entered? w w' = none ∧ w.followCost = w'.followCost + 1) ∨
      ∃ d, entered? w w' = some d ∧ w.marks[d.name]?.isNone ∧ w'.marks[d.name]? = some .visiting ∧
        w.followCost + moduleCost d = w'.followCost + 1 := by
  cases h with
  | place hs =>
    refine .inl ⟨by simp [entered?, Walk.place, hs], ?_⟩
    simp only [followCost, Walk.place, hs, List.foldr_cons, List.length_nil]
    omega
  | pass hs _ _ =>
    refine .inl ⟨by simp [entered?, hs], ?_⟩
    simp only [followCost, hs, List.foldr_cons, List.length_cons]
    omega
  | @enter m d rest below hs _ hmark =>
    refine .inr ⟨d, by simp [entered?, Walk.enter, Frame.of, hs], by simp [hmark],
      by simp [Walk.enter], ?_⟩
    simp only [followCost, Walk.enter, Frame.of, moduleCost, hs, List.foldr_cons, List.length_cons]
    omega

/-- The modules that come on the stack from a state on are those of its move and those from the next
state on. -/
theorem entered_states_moved (h : w.step r = .moved w') :
    entered (w.states r) = (entered? w w').toList ++ entered (w'.states r) := by
  obtain ⟨rest, hrest⟩ := exists_states_eq r w'
  rw [states_moved h, hrest, entered]

theorem turns_moved (h : w.step r = .moved w') : w.turns r ≤ w'.turns r + 1 := by
  rw [turns, states_moved h, List.countP_cons, turns]
  split <;> omega

/-- **A walk takes no more turns than it has to account for**: what the modules on its stack have left
to do, and the cost of those that come on it. -/
theorem turns_le (r : Registry) (w : Walk) :
    w.turns r ≤ w.followCost + totalCost (entered (w.states r)) := by
  induction w using states.induct (r := r) with
  | case1 w order h =>
    obtain ⟨hs, -⟩ := stack_of_step h
    simp [turns, states_finished h, hs]
  | case2 w e h =>
    have turn : w.turns r ≤ 1 := by
      rw [turns, states_failed h]
      exact List.countP_le_length
    have due : 1 ≤ w.followCost := by
      cases fails_of_step h with
      | missing hs _ | cycle hs _ _ =>
        simp only [followCost, hs, List.foldr_cons]
        omega
    omega
  | case3 w w' h ih =>
    have turn := turns_moved h
    rw [entered_states_moved h]
    rcases (moves_of_step h).account with ⟨stays, account⟩ | ⟨d, comes, -, -, account⟩
    · rw [stays, Option.toList_none, List.nil_append]
      omega
    · rw [comes, Option.toList_some, List.singleton_append, totalCost_cons]
      omega

/-- **A module comes on the stack once**: before it does it is not met, and from then on it is. -/
theorem entered_fresh (r : Registry) (w : Walk) :
    (∀ d ∈ entered (w.states r), w.marks[d.name]?.isNone) ∧
      ((entered (w.states r)).map Module.name).Nodup := by
  induction w using states.induct (r := r) with
  | case1 w order h => simp [states_finished h, entered]
  | case2 w e h => simp [states_failed h, entered]
  | case3 w w' h ih =>
    obtain ⟨fresh, nodup⟩ := ih
    have moves := moves_of_step h
    have later : ∀ d ∈ entered (w'.states r), w.marks[d.name]?.isNone :=
      fun d hd => moves.unmet (fresh d hd)
    rw [entered_states_moved h]
    rcases moves.account with ⟨stays, -⟩ | ⟨d, comes, unmet, met, -⟩
    · rw [stays, Option.toList_none, List.nil_append]
      exact ⟨later, nodup⟩
    · rw [comes, Option.toList_some, List.singleton_append, List.map_cons, List.nodup_cons]
      refine ⟨List.forall_mem_cons.2 ⟨unmet, later⟩, fun again => ?_, nodup⟩
      -- a module that came on again would have been unmet behind the move that met it
      obtain ⟨d', hd', hname⟩ := List.mem_map.1 again
      have unmet' := fresh d' hd'
      rw [hname, met] at unmet'
      cases unmet'

/-- A module that comes on the stack stands on top in one of the states. -/
theorem exists_of_mem_entered {d : Module} {l : List Walk} (h : d ∈ entered l) :
    ∃ v ∈ l, ∃ rest below, v.stack = ⟨d, rest⟩ :: below := by
  induction l using entered.induct with
  | case1 => cases h
  | case2 w => cases h
  | case3 w w' rest ih =>
    rw [entered] at h
    rcases List.mem_append.1 h with h | h
    · refine ⟨w', by simp, ?_⟩
      rw [Option.mem_toList, entered?] at h
      split at h
      · obtain ⟨f, hf, rfl⟩ := Option.map_eq_some_iff.1 h
        obtain ⟨below, hs⟩ := List.head?_eq_some_iff.1 hf
        exact ⟨f.pending, below, hs⟩
      · cases h
    · obtain ⟨v, hv, hs⟩ := ih h
      exact ⟨v, List.mem_cons_of_mem _ hv, hs⟩

end Walk

/-! ## What is reached -/

/-- Modules that are all different cost what they cost as a set. -/
theorem totalCost_eq_sum {l : List Module} (nodup : l.Nodup) :
    totalCost l = ∑ d ∈ l.toFinset, moduleCost d := by
  induction l with
  | nil => rfl
  | cons d l ih =>
    obtain ⟨new, rest⟩ := List.nodup_cons.1 nodup
    rw [totalCost_cons, ih rest, List.toFinset_cons, Finset.sum_insert (by simpa using new)]

/-- Modules that are all different and all in a set cost no more than the set. -/
theorem totalCost_le_sum {l : List Module} {s : Finset Module} (nodup : l.Nodup)
    (sub : ∀ d ∈ l, d ∈ s) : totalCost l ≤ ∑ d ∈ s, moduleCost d := by
  rw [totalCost_eq_sum nodup]
  exact Finset.sum_le_sum_of_subset fun d hd => sub d (List.mem_toFinset.1 hd)

end ShaderLink.Link

namespace ShaderLink.Registry

open ShaderLink.Link

variable {r : Registry} {entry : String} {m : Module}

open scoped Classical in
/-- The registered modules that an entry point reaches, itself among them. -/
noncomputable def reached (r : Registry) (entry : String) : Finset Module :=
  r.modules.toFinset.filter fun m => r.Reaches entry m.name

theorem mem_reached_iff : m ∈ r.reached entry ↔ r.get? m.name = some m ∧ r.Reaches entry m.name := by
  simp only [reached, Finset.mem_filter, List.mem_toFinset, mem_modules_iff]

/-- **What linking an entry point goes through**, from the walk that starts at its module. -/
structure WalkLaws (r : Registry) (entry : String) (start : Walk) : Prop where
  /-- In each state the marks, the stack and the order agree. -/
  agrees : ∀ w ∈ start.states r, w.Agrees r entry
  /-- In the last one the walk is finished or fails, and that is what linking returns. -/
  ends : ∃ last, (start.states r).getLast? = some last ∧
    ((last.stack = [] ∧ r.linkOrder entry = .ok last.order.toList) ∨
      ∃ e, last.step r = .failed e ∧ r.linkOrder entry = .error e)
  /-- The modules on the stack at the start and those that come on it later are reached, and they
  are all different. -/
  reached : ∀ d ∈ start.stack.map (·.owner) ++ Walk.entered (start.states r), d ∈ r.reached entry
  once : (start.stack.map (·.owner) ++ Walk.entered (start.states r)).Nodup
  /-- The walk takes at most a turn for each import of a module that is reached, and one for the
  module itself. -/
  turns_le : start.turns r ≤ ∑ d ∈ r.reached entry, (d.imports.length + 1)

/-- A module on top of the stack of a sound walk is reached. -/
theorem mem_reached_of_sound {w : Walk} (h : w.Sound r entry) {rest : List String}
    {below : List Frame} (hs : w.stack = ⟨m, rest⟩ :: below) : m ∈ r.reached entry := by
  obtain ⟨htrail, -⟩ := h.top hs
  exact mem_reached_iff.2 ⟨htrail.held, htrail.reaches⟩

/-- **Linking follows each module once**: from every registered entry point the marks, the stack and
the order of the walk agree in each state, no module comes on the stack twice, and the walk ends after
at most one turn for each import of the modules that are reached and one for each of the modules. -/
theorem walkLaws_of_registered (registered : r.get? entry = some m) :
    r.WalkLaws entry (Walk.start m) := by
  have sound : ∀ w ∈ (Walk.start m).states r, w.Sound r entry :=
    fun w hw => (Walk.sound_start registered).of_runs (Walk.runs_of_mem_states hw)
  have entered : ∀ d ∈ Walk.entered ((Walk.start m).states r), d ∈ r.reached entry := by
    intro d hd
    obtain ⟨w, hw, rest, below, hs⟩ := Walk.exists_of_mem_entered hd
    exact mem_reached_of_sound (sound w hw) hs
  have all_reached : ∀ d ∈ m :: Walk.entered ((Walk.start m).states r), d ∈ r.reached entry :=
    List.forall_mem_cons.2 ⟨mem_reached_of_sound (Walk.sound_start registered) rfl, entered⟩
  have once : (m :: Walk.entered ((Walk.start m).states r)).Nodup := by
    obtain ⟨fresh, nodup⟩ := Walk.entered_fresh r (Walk.start m)
    refine List.nodup_cons.2 ⟨fun again => ?_, .of_map _ nodup⟩
    simpa [Walk.start] using fresh m again
  refine ⟨fun w hw => (sound w hw).agrees, ?_, all_reached, once, ?_⟩
  · obtain ⟨last, hlast, ⟨hs, hrun⟩ | ⟨e, he, hrun⟩⟩ := Walk.exists_getLast?_states r (Walk.start m)
    · exact ⟨last, hlast, .inl ⟨hs, by simp only [linkOrder, registered, hrun, Except.map]⟩⟩
    · exact ⟨last, hlast, .inr ⟨e, he, by simp only [linkOrder, registered, hrun, Except.map]⟩⟩
  · calc (Walk.start m).turns r
        ≤ (Walk.start m).followCost + totalCost (Walk.entered ((Walk.start m).states r)) :=
          Walk.turns_le r (Walk.start m)
      _ = totalCost (m :: Walk.entered ((Walk.start m).states r)) := rfl
      _ ≤ ∑ d ∈ r.reached entry, (d.imports.length + 1) := totalCost_le_sum once all_reached

/-- Rungs of two modules, each of which imports the whole rung below it: with every rung the paths from
the top become twice as many. -/
def ladder : Registry :=
  [outline "top" ["a", "b"], outline "a" ["c", "d"], outline "b" ["c", "d"], outline "c" ["e", "f"],
    outline "d" ["e", "f"], outline "e" [], outline "f" []].foldl insert empty

/-- Four paths lead from the top to each of the lowest modules; the walk takes as many turns as there
are modules and imports. -/
theorem walkLaws_ladder :
    ladder.get? "top" = some (outline "top" ["a", "b"]) ∧
      ladder.WalkLaws "top" (Walk.start (outline "top" ["a", "b"])) ∧
      (Walk.start (outline "top" ["a", "b"])).turns ladder = 17 := by
  have registered : ladder.get? "top" = some (outline "top" ["a", "b"]) := by decide +kernel
  exact ⟨registered, walkLaws_of_registered registered, by decide +kernel⟩

end ShaderLink.Registry
