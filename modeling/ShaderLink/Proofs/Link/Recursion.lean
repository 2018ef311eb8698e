import ShaderLink.Link.Order
import ShaderLink.Link.Visit
import ShaderLink.Proofs.Link.Invariant

/-!
# The walk and the recursion agree

The walk along imports keeps its own stack where `Link.visit` recurses. A stack is what is left of
the recursion: each frame still has to visit its pending imports and then to place its module, after
the frames above it. `unwind` says so by calling the recursion itself, and every move of a sound
walk leaves what `unwind` gives unchanged (`left_eq_of_moves`): a move only carries out one step of
the recursion. The marks are the two tests of `visit`, for a module is marked visiting while it is
on the path and resolved once it is placed.

**The law** (`linkOrder_eq_visit`): linking an entry point is visiting it with nothing placed, the
same modules in the same order, or the same error.

**What it does not establish.** The two differ in the memory that they take, of which nothing is
said here.
-/

set_option autoImplicit false

namespace ShaderLink.Link

variable {r : Registry} {name : String} {parent : Option String} {path : List String}
  {done : List Module} {d : Module}

/-! ## One step of the recursion -/

theorem visit_missing (h : r.get? name = none) :
    visit r name parent path done = .error (.unresolvedImport name parent) := by
  rw [visit]
  split
  · rfl
  · next hd => simp [h] at hd

theorem visit_placed (hd : r.get? name = some d) (hdone : name ∈ done.map Module.name) :
    visit r name parent path done = .ok done := by
  rw [visit]
  split
  · next hn => simp [hd] at hn
  · rw [if_pos hdone]

theorem visit_cycle (hd : r.get? name = some d) (hdone : name ∉ done.map Module.name)
    (hpath : name ∈ path) :
    visit r name parent path done = .error (.circularDependency name) := by
  rw [visit]
  split
  · next hn => simp [hd] at hn
  · rw [if_neg hdone, dif_pos hpath]

theorem visit_new (hd : r.get? name = some d) (hdone : name ∉ done.map Module.name)
    (hpath : name ∉ path) :
    visit r name parent path done =
      (visitAll r d.imports name (name :: path) done).map (· ++ [d]) := by
  rw [visit]
  split
  · next hn => simp [hd] at hn
  · next m hm =>
    obtain rfl : d = m := Option.some.inj (hd.symm.trans hm)
    rw [if_neg hdone, dif_neg hpath]
    cases visitAll r d.imports name (name :: path) done <;> rfl

theorem visitAll_nil : visitAll r [] name path done = .ok done := by
  rw [visitAll]

theorem visitAll_cons {n : String} {rest : List String} :
    visitAll r (n :: rest) name path done =
      (visit r n (some name) path done).bind (visitAll r rest name path) := by
  rw [visitAll]
  cases visit r n (some name) path done <;> rfl

/-! ## What a stack has left to visit -/

/-- **What a stack still has to visit**, from the topmost frame down: its pending imports, and then
its module is placed. -/
def unwind (r : Registry) : List Frame → List Module → Except BuildError (List Module)
  | [], done => .ok done
  | f :: below, done =>
    (visitAll r f.pending f.owner.name (f.owner.name :: below.map (·.owner.name)) done).bind
      fun done' => unwind r below (done' ++ [f.owner])

/-- What a walk still has to visit. -/
def Walk.left (r : Registry) (w : Walk) : Except BuildError (List Module) :=
  unwind r w.stack w.order.toList

variable {w w' : Walk} {entry : String} {m : Module} {n : String} {rest : List String}
  {below : List Frame}

/-- A stack whose topmost module has the import `n` at hand visits it first. -/
private theorem left_eq_bind (hs : w.stack = ⟨m, n :: rest⟩ :: below) :
    w.left r = (visit r n (some m.name) w.following w.order.toList).bind
      (unwind r (⟨m, rest⟩ :: below)) := by
  have hpath : w.following = m.name :: below.map (·.owner.name) := by simp [Walk.following, hs]
  rw [Walk.left, hs, unwind, visitAll_cons, ← hpath]
  cases visit r n (some m.name) w.following w.order.toList with
  | error e => rfl
  | ok done => rw [Except.bind, Except.bind, unwind, ← hpath]

/-- **A move carries out one step of the recursion**, so that the same is left to visit. -/
theorem left_eq_of_moves (h : w.Sound r entry) (hmove : Walk.Moves r w w') : w'.left r = w.left r := by
  cases hmove with
  | @place m below hs =>
    rw [Walk.left, Walk.left, hs, unwind, visitAll_nil]
    simp only [Walk.place, Array.toList_push, Except.bind]
  | @pass m d rest below hs hd hmark =>
    rw [left_eq_bind hs, visit_placed hd ((h.resolved _).1 hmark)]
    rfl
  | @enter m d rest below hs hd hmark =>
    have hdone : d.name ∉ w.placed := fun hn => by simp [(h.resolved _).2 hn] at hmark
    have hpath : d.name ∉ w.following := fun hn => by simp [(h.visiting _).2 hn] at hmark
    rw [left_eq_bind hs, visit_new hd hdone hpath]
    show (visitAll r d.imports d.name
      (d.name :: (Frame.mk m rest :: below).map (·.owner.name)) w.order.toList).bind _ = _
    have hfollowing : (Frame.mk m rest :: below).map (·.owner.name) = w.following := by
      simp [Walk.following, hs]
    rw [hfollowing]
    cases visitAll r d.imports d.name (d.name :: w.following) w.order.toList <;> rfl

theorem left_eq_of_runs (h : w.Sound r entry) (hruns : Walk.Runs r w w') : w'.left r = w.left r := by
  induction hruns with
  | refl => rfl
  | tail hruns' hmove ih => rw [left_eq_of_moves (h.of_runs hruns') hmove, ih]

/-- Where a walk fails, the recursion fails in the same way. -/
theorem left_eq_of_fails (h : w.Sound r entry) {e : BuildError} (he : w.Fails r e) :
    w.left r = .error e := by
  cases he with
  | @missing m n rest below hs hn =>
    rw [left_eq_bind hs, visit_missing hn]
    rfl
  | @cycle m d rest below hs hd hmark =>
    have hfollowed := (h.visiting _).1 hmark
    rw [left_eq_bind hs, visit_cycle hd (h.not_mem_placed hfollowed) hfollowed]
    rfl

/-- A walk returns what the recursion would make of its stack. -/
theorem run_eq_left (h : w.Sound r entry) : (w.run r).map Array.toList = w.left r := by
  obtain ⟨last, hruns, ⟨hs, hrun⟩ | ⟨e, he, hrun⟩⟩ := Walk.exists_last r w
  · rw [hrun, ← left_eq_of_runs h hruns, Walk.left, hs]
    rfl
  · rw [hrun, ← left_eq_of_runs h hruns, left_eq_of_fails (h.of_runs hruns) he]
    rfl

end ShaderLink.Link

namespace ShaderLink.Registry

open ShaderLink.Link

/-- **Linking is the plain recursion**: the same modules in the same order, or the same error, for
every registry and every entry point. -/
theorem linkOrder_eq_visit (r : Registry) (entry : String) :
    r.linkOrder entry = visit r entry none [] [] := by
  cases hm : r.get? entry with
  | none => rw [linkOrder, hm, visit_missing hm]
  | some m =>
    obtain rfl := name_of_get? hm
    rw [visit_new hm (by simp) (by simp)]
    simp only [linkOrder, hm]
    rw [run_eq_left (Walk.sound_start hm)]
    show (visitAll r m.imports m.name [m.name] []).bind _ = _
    cases visitAll r m.imports m.name [m.name] [] <;> rfl

end ShaderLink.Registry
