import ShaderLink.Link.Cost
import ShaderLink.Registry

/-!
# The walk along imports

Linking follows the imports of an entry point depth first. The walk is a value: the marks on the
modules met so far, the modules whose imports are being followed, and the modules placed. One move
takes the topmost module that is being followed and either consumes its next import or, when it has
none left, places it. So a module is placed after all that it imports, and a module met twice stays
where it was placed first.

**The law** (`cost_lt_of_step`): each move lowers the cost of the walk, the imports not yet consumed
counted together with the modules they can still lead to. That is why `run` ends, also where imports
form a cycle or where many paths lead to one module.
-/

set_option autoImplicit false

namespace ShaderLink.Link

/-- How far linking has come with a module that it has met. -/
inductive Mark
  /-- Its imports are being followed. -/
  | visiting
  /-- It is placed, and so is all that it imports. -/
  | resolved
  deriving DecidableEq, Repr

/-- A module whose imports are being followed. -/
structure Frame where
  owner : Module
  /-- The imports that have not been consumed. -/
  pending : List String
  deriving DecidableEq, Repr

/-- Starts on the imports of a module. -/
def Frame.of (m : Module) : Frame := ⟨m, m.imports⟩

/-- The state of the walk. -/
structure Walk where
  /-- The marks on the modules met so far, by name. -/
  marks : Std.ExtTreeMap String Mark
  /-- The modules being followed, each but the last imported by the one after it. -/
  stack : List Frame
  /-- The modules placed, in order. -/
  order : Array Module

/-- What one move makes of the walk. -/
inductive Move
  /-- Nothing is left to follow. -/
  | finished (order : Array Module)
  /-- The import at hand cannot be linked. -/
  | failed (error : BuildError)
  /-- The walk goes on. -/
  | moved (walk : Walk)

namespace Walk

/-- The walk at its start: nothing met but the entry. -/
def start (entry : Module) : Walk where
  marks := (∅ : Std.ExtTreeMap String Mark).insert entry.name .visiting
  stack := [.of entry]
  order := #[]

/-- Places the topmost module, whose imports are consumed. -/
def place (w : Walk) (m : Module) (below : List Frame) : Walk where
  marks := w.marks.insert m.name .resolved
  stack := below
  order := w.order.push m

/-- Starts to follow a module met for the first time. -/
def enter (w : Walk) (m : Module) (below : List Frame) : Walk where
  marks := w.marks.insert m.name .visiting
  stack := .of m :: below
  order := w.order

/-- One move of the walk in a registry. -/
def step (r : Registry) (w : Walk) : Move :=
  match w.stack with
  | [] => .finished w.order
  | ⟨m, []⟩ :: below => .moved (w.place m below)
  | ⟨m, n :: rest⟩ :: below =>
    match r.get? n with
    | none => .failed (.unresolvedImport n (some m.name))
    | some d =>
      match w.marks[d.name]? with
      | some .resolved => .moved { w with stack := ⟨m, rest⟩ :: below }
      | some .visiting => .failed (.circularDependency d.name)
      | none => .moved (w.enter d (⟨m, rest⟩ :: below))

/-! ## What is left to do -/

/-- The moves that the modules being followed can still take for themselves. -/
def followCost (w : Walk) : Nat :=
  w.stack.foldr (fun f n => f.pending.length + 1 + n) 0

/-- The modules of the registry that have not been met. -/
def unmet (r : Registry) (w : Walk) : List Module :=
  r.modules.filter fun m => w.marks[m.name]?.isNone

/-- A bound on the moves that are left. -/
def cost (r : Registry) (w : Walk) : Nat :=
  w.followCost + totalCost (w.unmet r)

/-- A mark more leaves no more modules unmet. -/
theorem isNone_of_insert {marks : Std.ExtTreeMap String Mark} {n k : String} {x : Mark}
    (h : (marks.insert n x)[k]?.isNone = true) : marks[k]?.isNone = true := by
  rw [Std.ExtTreeMap.getElem?_insert] at h
  split at h
  · cases h
  · exact h

/-- **Each move leaves less to do.** -/
theorem cost_lt_of_step {r : Registry} {w w' : Walk} (h : w.step r = .moved w') :
    w'.cost r < w.cost r := by
  unfold step at h
  split at h
  · cases h
  · next m below hs =>
    obtain rfl := Move.moved.inj h
    have := totalCost_filter_le (p := fun d => (w.marks.insert m.name .resolved)[d.name]?.isNone)
      (q := fun d => w.marks[d.name]?.isNone) (fun d => isNone_of_insert) r.modules
    simp only [cost, followCost, unmet, place, hs, List.foldr_cons, List.length_nil]
    omega
  · next m n rest below hs =>
    split at h
    · cases h
    · next d hd =>
      have hname := Registry.name_of_get? hd
      split at h
      · obtain rfl := Move.moved.inj h
        simp only [cost, followCost, unmet, hs, List.foldr_cons, List.length_cons]
        omega
      · cases h
      · next hmark =>
        obtain rfl := Move.moved.inj h
        have hmem : d ∈ r.modules := Registry.mem_modules_iff.2 (by rw [hname]; exact hd)
        have := totalCost_filter_add_le
          (p := fun c => (w.marks.insert d.name .visiting)[c.name]?.isNone)
          (q := fun c => w.marks[c.name]?.isNone) (fun c => isNone_of_insert) hmem
          (by simp) (by simp [hmark])
        simp only [cost, followCost, unmet, enter, Frame.of, hs, List.foldr_cons, List.length_cons,
          moduleCost] at this ⊢
        omega

/-! ## The whole walk -/

/-- Moves until the walk is finished or has failed. -/
def run (r : Registry) (w : Walk) : Except BuildError (Array Module) :=
  match _h : w.step r with
  | .finished order => .ok order
  | .failed e => .error e
  | .moved w' => w'.run r
termination_by w.cost r
decreasing_by exact cost_lt_of_step _h

theorem run_finished {r : Registry} {w : Walk} {order : Array Module}
    (h : w.step r = .finished order) : w.run r = .ok order := by
  rw [run, h]

theorem run_failed {r : Registry} {w : Walk} {e : BuildError} (h : w.step r = .failed e) :
    w.run r = .error e := by
  rw [run, h]

theorem run_moved {r : Registry} {w w' : Walk} (h : w.step r = .moved w') :
    w.run r = w'.run r := by
  rw [run, h]

end Walk

end ShaderLink.Link
