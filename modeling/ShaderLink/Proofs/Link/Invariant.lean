import ShaderLink.Link.Walk
import ShaderLink.Proofs.Link.Reachability

/-!
# What every walk along imports keeps

The moves of a walk and the ways in which it fails, each said as a relation beside `Walk.step`, and
the invariant that all moves keep (`Sound`): the marks say which modules are followed and which are
placed, the modules followed are one path of imports from the entry point (`Trail`), and the modules
placed stand each behind its imports.

**The law** (`Sound.of_runs`): every walk that starts at a registered module is sound in each state
that it comes to. What linking returns, and what its errors mean, is read off the last state
(`exists_last`).
-/

set_option autoImplicit false

namespace ShaderLink.Link

/-! ## Moves and failures -/

namespace Walk

/-- The names of the modules being followed, the topmost first. -/
def following (w : Walk) : List String :=
  w.stack.map (·.owner.name)

/-- The names of the modules placed, in order. -/
def placed (w : Walk) : List String :=
  w.order.toList.map Module.name

/-- One move of a walk. -/
inductive Moves (r : Registry) (w : Walk) : Walk → Prop
  /-- The topmost module has no import left. -/
  | place {m : Module} {below : List Frame} :
      w.stack = ⟨m, []⟩ :: below → Moves r w (w.place m below)
  /-- The import at hand is placed already. -/
  | pass {m d : Module} {rest : List String} {below : List Frame} :
      w.stack = ⟨m, d.name :: rest⟩ :: below → r.get? d.name = some d →
      w.marks[d.name]? = some .resolved → Moves r w { w with stack := ⟨m, rest⟩ :: below }
  /-- The import at hand is met for the first time. -/
  | enter {m d : Module} {rest : List String} {below : List Frame} :
      w.stack = ⟨m, d.name :: rest⟩ :: below → r.get? d.name = some d →
      w.marks[d.name]? = none → Moves r w (w.enter d (⟨m, rest⟩ :: below))

/-- A walk that cannot go on. -/
inductive Fails (r : Registry) (w : Walk) : BuildError → Prop
  /-- The import at hand is not registered. -/
  | missing {m : Module} {n : String} {rest : List String} {below : List Frame} :
      w.stack = ⟨m, n :: rest⟩ :: below → r.get? n = none →
      Fails r w (.unresolvedImport n (some m.name))
  /-- The import at hand is being followed. -/
  | cycle {m d : Module} {rest : List String} {below : List Frame} :
      w.stack = ⟨m, d.name :: rest⟩ :: below → r.get? d.name = some d →
      w.marks[d.name]? = some .visiting → Fails r w (.circularDependency d.name)

variable {r : Registry} {w w' : Walk}

theorem moves_of_step (h : w.step r = .moved w') : Moves r w w' := by
  unfold step at h
  split at h
  · cases h
  · next m below hs =>
    obtain rfl := Move.moved.inj h
    exact .place hs
  · next m n rest below hs =>
    split at h
    · cases h
    · next d hd =>
      obtain rfl := Registry.name_of_get? hd
      split at h
      · next hmark =>
        obtain rfl := Move.moved.inj h
        exact .pass hs hd hmark
      · cases h
      · next hmark =>
        obtain rfl := Move.moved.inj h
        exact .enter hs hd hmark

theorem fails_of_step {e : BuildError} (h : w.step r = .failed e) : Fails r w e := by
  unfold step at h
  split at h
  · cases h
  · cases h
  · next m n rest below hs =>
    split at h
    · next hn =>
      obtain rfl := Move.failed.inj h
      exact .missing hs hn
    · next d hd =>
      obtain rfl := Registry.name_of_get? hd
      split at h
      · cases h
      · next hmark =>
        obtain rfl := Move.failed.inj h
        exact .cycle hs hd hmark
      · cases h

theorem stack_of_step {order : Array Module} (h : w.step r = .finished order) :
    w.stack = [] ∧ order = w.order := by
  unfold step at h
  split at h
  · next hs => exact ⟨hs, (Move.finished.inj h).symm⟩
  · cases h
  · split at h
    · cases h
    · split at h <;> cases h

/-- The states that a walk comes to. -/
def Runs (r : Registry) : Walk → Walk → Prop :=
  Relation.ReflTransGen (Moves r)

/-- **A walk comes to an end**, and what it returns is what its last state says. -/
theorem exists_last (r : Registry) (w : Walk) :
    ∃ last, Runs r w last ∧
      ((last.stack = [] ∧ w.run r = .ok last.order) ∨ ∃ e, Fails r last e ∧ w.run r = .error e) := by
  induction w using Walk.run.induct (r := r) with
  | case1 w order h =>
    obtain ⟨hs, rfl⟩ := stack_of_step h
    exact ⟨w, .refl, .inl ⟨hs, run_finished h⟩⟩
  | case2 w e h => exact ⟨w, .refl, .inr ⟨e, fails_of_step h, run_failed h⟩⟩
  | case3 w w' h ih =>
    obtain ⟨last, hruns, hlast⟩ := ih
    rw [← run_moved h] at hlast
    exact ⟨last, .head (moves_of_step h) hruns, hlast⟩

end Walk

/-! ## The path of imports on the stack -/

variable {r : Registry} {entry : String} {placed placed' : List String} {m : Module}
  {below : List Frame}

/-- All that `m` imports before `rest` is placed. -/
def Consumed (placed : List String) (m : Module) (rest : List String) : Prop :=
  ∃ done, m.imports = done ++ rest ∧ ∀ n ∈ done, n ∈ placed

namespace Consumed

variable {n : String} {rest : List String}

theorem start (placed : List String) (m : Module) : Consumed placed m m.imports :=
  ⟨[], rfl, by simp⟩

theorem mono (h : Consumed placed m rest) (hsub : placed ⊆ placed') : Consumed placed' m rest := by
  obtain ⟨done, himports, hdone⟩ := h
  exact ⟨done, himports, fun n hn => hsub (hdone n hn)⟩

theorem mem_imports (h : Consumed placed m (n :: rest)) : n ∈ m.imports := by
  obtain ⟨done, himports, -⟩ := h
  rw [himports]
  simp

/-- An import that is placed is passed. -/
theorem pass (h : Consumed placed m (n :: rest)) (hn : n ∈ placed) : Consumed placed m rest := by
  obtain ⟨done, himports, hdone⟩ := h
  refine ⟨done ++ [n], by simp [himports], fun k hk => ?_⟩
  rcases List.mem_append.1 hk with hk | hk
  · exact hdone k hk
  · rw [List.mem_singleton.1 hk]
    exact hn

theorem all_placed (h : Consumed placed m []) : ∀ n ∈ m.imports, n ∈ placed := by
  obtain ⟨done, himports, hdone⟩ := h
  rw [himports, List.append_nil]
  exact hdone

end Consumed

/-- **The frames below a module are a path of imports to it** from the entry point, the nearest
importer first: each has placed what it imports before the module above it. -/
inductive Trail (r : Registry) (entry : String) (placed : List String) : Module → List Frame → Prop
  | first {m : Module} : r.get? entry = some m → Trail r entry placed m []
  | next {m d : Module} {rest : List String} {below : List Frame} :
      Trail r entry placed m below → r.get? d.name = some d →
      Consumed placed m (d.name :: rest) → Trail r entry placed d (⟨m, rest⟩ :: below)

namespace Trail

theorem mono (h : Trail r entry placed m below) (hsub : placed ⊆ placed') :
    Trail r entry placed' m below := by
  induction h with
  | first hm => exact .first hm
  | next _ hd hconsumed ih => exact .next ih hd (hconsumed.mono hsub)

/-- The module that the path leads to is registered. -/
theorem held (h : Trail r entry placed m below) : r.get? m.name = some m := by
  cases h with
  | first hm => rwa [Registry.name_of_get? hm]
  | next _ hd _ => exact hd

theorem reaches (h : Trail r entry placed m below) : r.Reaches entry m.name := by
  induction h with
  | first hm =>
    rw [Registry.name_of_get? hm]
    exact .refl
  | next hbelow _ hconsumed ih =>
    exact ih.tail (Registry.imports_of_mem hbelow.held hconsumed.mem_imports)

/-- Every module further down the stack leads to the one on top. -/
theorem leads (h : Trail r entry placed m below) :
    ∀ f ∈ below, Relation.TransGen r.Imports f.owner.name m.name := by
  induction h with
  | first _ => simp
  | @next m d rest below hbelow _ hconsumed ih =>
    have hstep : r.Imports m.name d.name :=
      Registry.imports_of_mem hbelow.held hconsumed.mem_imports
    intro f hf
    rcases List.mem_cons.1 hf with rfl | hf
    · exact .single hstep
    · exact (ih f hf).tail hstep

end Trail

/-! ## The invariant -/

namespace Walk

/-- Where a walk stands: behind the entry point, which it placed last, or on a path from it. -/
inductive Stands (r : Registry) (entry : String) (w : Walk) : Prop
  | done : w.stack = [] → (∃ m, r.get? entry = some m ∧ w.order.toList.getLast? = some m) →
      Stands r entry w
  | on {m : Module} {rest : List String} {below : List Frame} :
      w.stack = ⟨m, rest⟩ :: below → Trail r entry w.placed m below → Consumed w.placed m rest →
      Stands r entry w

/-- **A walk is sound** when its marks, its stack and its order agree, and its order is one of
registered modules that the entry point needs. -/
structure Sound (r : Registry) (entry : String) (w : Walk) : Prop where
  stands : Stands r entry w
  visiting : ∀ n, w.marks[n]? = some .visiting ↔ n ∈ w.following
  resolved : ∀ n, w.marks[n]? = some .resolved ↔ n ∈ w.placed
  following_nodup : w.following.Nodup
  placed_nodup : w.placed.Nodup
  before : ImportsBefore w.order.toList
  needed : ∀ m ∈ w.order.toList, r.get? m.name = some m ∧ r.Reaches entry m.name

variable {w w' : Walk}

/-- A mark is the last that was set. -/
private theorem getElem?_mark (marks : Std.ExtTreeMap String Mark) (k n : String) (x : Mark) :
    (marks.insert k x)[n]? = if k = n then some x else marks[n]? := by
  simp [Std.ExtTreeMap.getElem?_insert]

theorem placed_place (w : Walk) (m : Module) (below : List Frame) :
    (w.place m below).placed = w.placed ++ [m.name] := by
  simp [place, placed]

/-- A walk starts sound at a registered module. -/
theorem sound_start (hm : r.get? entry = some m) : Sound r entry (start m) where
  stands := .on rfl (.first hm) (.start _ m)
  visiting n := by
    simp only [start, getElem?_mark, following, Frame.of, List.map_cons, List.map_nil,
      List.mem_singleton]
    by_cases hn : m.name = n
    · simp [hn]
    · simp [hn, Ne.symm hn]
  resolved n := by
    simp only [start, getElem?_mark, placed, List.map_nil]
    by_cases hn : m.name = n <;> simp [hn]
  following_nodup := by simp [start, following]
  placed_nodup := by simp [start, placed]
  before := importsBefore_nil
  needed := by simp [start]

namespace Sound

variable {rest : List String}

/-- What a sound walk says of its topmost module. -/
theorem top (h : Sound r entry w) (hs : w.stack = ⟨m, rest⟩ :: below) :
    Trail r entry w.placed m below ∧ Consumed w.placed m rest := by
  cases h.stands with
  | done hnil _ => simp [hs] at hnil
  | on hs' htrail hconsumed =>
    rw [hs] at hs'
    cases hs'
    exact ⟨htrail, hconsumed⟩

/-- A module that is followed is not placed. -/
theorem not_mem_placed (h : Sound r entry w) {n : String} (hn : n ∈ w.following) :
    n ∉ w.placed := by
  intro hp
  have hv := (h.visiting n).2 hn
  rw [(h.resolved n).2 hp] at hv
  cases hv

/-- Placing the topmost module moves on to its importer, which has then placed one import more. -/
theorem stands_place (h : Sound r entry w) (hs : w.stack = ⟨m, []⟩ :: below) :
    Stands r entry (w.place m below) := by
  obtain ⟨htrail, -⟩ := h.top hs
  have hsub : w.placed ⊆ (w.place m below).placed := by
    rw [placed_place]
    exact List.subset_append_left _ _
  have hmem : m.name ∈ (w.place m below).placed := by simp [placed_place]
  cases htrail with
  | first hm => exact .done rfl ⟨m, hm, by simp [place]⟩
  | next hbelow _ hconsumed => exact .on rfl (hbelow.mono hsub) ((hconsumed.mono hsub).pass hmem)

theorem place (h : Sound r entry w) (hs : w.stack = ⟨m, []⟩ :: below) :
    Sound r entry (w.place m below) := by
  obtain ⟨htrail, hconsumed⟩ := h.top hs
  have hfollowing : w.following = m.name :: (w.place m below).following := by
    simp [following, hs, Walk.place]
  have hnodup := h.following_nodup
  rw [hfollowing, List.nodup_cons] at hnodup
  have hmark := h.not_mem_placed (n := m.name) (by simp [hfollowing])
  refine ⟨h.stands_place hs, fun n => ?_, fun n => ?_, hnodup.2, ?_, ?_, ?_⟩
  · have hv := h.visiting n
    rw [hfollowing, List.mem_cons] at hv
    show (w.marks.insert m.name .resolved)[n]? = _ ↔ _
    rw [getElem?_mark]
    by_cases hn : m.name = n
    · subst hn
      simp [hnodup.1]
    · rw [if_neg hn, hv]
      simp [Ne.symm hn]
  · show (w.marks.insert m.name .resolved)[n]? = _ ↔ _
    rw [getElem?_mark, placed_place]
    by_cases hn : m.name = n
    · simp [hn]
    · rw [if_neg hn, h.resolved n]
      simp [Ne.symm hn]
  · rw [placed_place, List.nodup_append]
    refine ⟨h.placed_nodup, by simp, fun k hk n hn hkn => hmark ?_⟩
    rwa [← List.mem_singleton.1 hn, ← hkn]
  · show ImportsBefore (w.order.push m).toList
    rw [Array.toList_push]
    exact h.before.concat hconsumed.all_placed
  · intro d hd
    rcases List.mem_append.1 (Array.toList_push ▸ hd) with hd | hd
    · exact h.needed d hd
    · rw [List.mem_singleton.1 hd]
      exact ⟨htrail.held, htrail.reaches⟩

theorem pass {d : Module} (h : Sound r entry w) (hs : w.stack = ⟨m, d.name :: rest⟩ :: below)
    (hmark : w.marks[d.name]? = some .resolved) :
    Sound r entry { w with stack := ⟨m, rest⟩ :: below } := by
  obtain ⟨htrail, hconsumed⟩ := h.top hs
  have hfollowing : w.following = Walk.following { w with stack := ⟨m, rest⟩ :: below } := by
    simp [following, hs]
  exact {
    stands := .on rfl htrail (hconsumed.pass ((h.resolved _).1 hmark))
    visiting := fun n => hfollowing ▸ h.visiting n
    resolved := h.resolved
    following_nodup := hfollowing ▸ h.following_nodup
    placed_nodup := h.placed_nodup
    before := h.before
    needed := h.needed }

theorem enter {d : Module} (h : Sound r entry w) (hs : w.stack = ⟨m, d.name :: rest⟩ :: below)
    (hd : r.get? d.name = some d) (hmark : w.marks[d.name]? = none) :
    Sound r entry (w.enter d (⟨m, rest⟩ :: below)) := by
  obtain ⟨htrail, hconsumed⟩ := h.top hs
  have hfollowing : (w.enter d (⟨m, rest⟩ :: below)).following = d.name :: w.following := by
    simp [following, hs, Walk.enter, Frame.of]
  have hnew : d.name ∉ w.following := fun hn => by simp [(h.visiting _).2 hn] at hmark
  have hunplaced : d.name ∉ w.placed := fun hn => by simp [(h.resolved _).2 hn] at hmark
  refine ⟨.on rfl (.next htrail hd hconsumed) (.start _ d), fun n => ?_, fun n => ?_, ?_,
    h.placed_nodup, h.before, h.needed⟩
  · show (w.marks.insert d.name .visiting)[n]? = _ ↔ _
    rw [getElem?_mark, hfollowing, List.mem_cons]
    by_cases hn : d.name = n
    · simp [hn]
    · rw [if_neg hn, h.visiting n]
      simp [Ne.symm hn]
  · show (w.marks.insert d.name .visiting)[n]? = _ ↔ n ∈ w.placed
    rw [getElem?_mark]
    by_cases hn : d.name = n
    · subst hn
      simp [hunplaced]
    · rw [if_neg hn, h.resolved n]
  · rw [hfollowing, List.nodup_cons]
    exact ⟨hnew, h.following_nodup⟩

/-- **Every move keeps a walk sound.** -/
theorem moves (h : Sound r entry w) (hmove : Moves r w w') : Sound r entry w' := by
  cases hmove with
  | place hs => exact h.place hs
  | pass hs _ hmark => exact h.pass hs hmark
  | enter hs hd hmark => exact h.enter hs hd hmark

theorem of_runs (h : Sound r entry w) (hruns : Runs r w w') : Sound r entry w' := by
  induction hruns with
  | refl => exact h
  | tail _ hmove ih => exact ih.moves hmove

end Sound

end Walk

end ShaderLink.Link
