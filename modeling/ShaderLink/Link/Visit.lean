import ShaderLink.Link.Cost
import ShaderLink.Registry

/-!
# Linking by recursion

The same order said without a stack: to visit a module is to visit its imports one after the other
and then to place it, unless it is placed already. The path is the chain of modules whose imports
are being visited, and a module on it closes a cycle.

This is the plain reading of what linking does. `Registry.linkOrder` keeps its own stack instead, so
that a long chain of imports costs memory only.

The recursion ends because each deeper visit has one more registered module on its path, and the
modules off the path have the fewer imports to be followed.
-/

set_option autoImplicit false

namespace ShaderLink.Link

/-- The registered modules that are not on a path. -/
def offPath (r : Registry) (path : List String) : List Module :=
  r.modules.filter fun m => m.name ∉ path

/-- A registered module that joins the path takes its own cost from what is off the path. -/
theorem totalCost_offPath_lt {r : Registry} {name : String} {m : Module} {path : List String}
    (hm : r.get? name = some m) (hp : name ∉ path) :
    totalCost (offPath r (name :: path)) + m.imports.length < totalCost (offPath r path) := by
  have hname := Registry.name_of_get? hm
  have hmem : m ∈ r.modules := Registry.mem_modules_iff.2 (by rw [hname]; exact hm)
  have := totalCost_filter_add_le (p := fun d => d.name ∉ name :: path) (q := fun d => d.name ∉ path)
    (fun d hd => by
      simp only [List.mem_cons, not_or, decide_eq_true_eq] at hd ⊢
      exact hd.2)
    hmem (by simp [hname]) (by simpa [hname] using hp)
  exact Nat.lt_of_lt_of_le (Nat.add_lt_add_left (Nat.lt_succ_self _) _) this

mutual
/-- Visits the module `name`, which `parent` imports, with the modules of `path` being visited and
those of `done` placed; the modules placed afterwards. -/
def visit (r : Registry) (name : String) (parent : Option String) (path : List String)
    (done : List Module) : Except BuildError (List Module) :=
  match _h : r.get? name with
  | none => .error (.unresolvedImport name parent)
  | some m =>
    if name ∈ done.map Module.name then .ok done
    else if _hp : name ∈ path then .error (.circularDependency name)
    else
      match visitAll r m.imports name (name :: path) done with
      | .error e => .error e
      | .ok done' => .ok (done' ++ [m])
termination_by totalCost (offPath r path)
decreasing_by exact totalCost_offPath_lt _h _hp

/-- Visits the imports of `parent` in order, up to the first that fails. -/
def visitAll (r : Registry) (imports : List String) (parent : String) (path : List String)
    (done : List Module) : Except BuildError (List Module) :=
  match imports with
  | [] => .ok done
  | n :: rest =>
    match visit r n (some parent) path done with
    | .error e => .error e
    | .ok done' => visitAll r rest parent path done'
termination_by totalCost (offPath r path) + imports.length
decreasing_by
  · exact Nat.lt_add_of_pos_right (Nat.succ_pos _)
  · exact Nat.add_lt_add_left (Nat.lt_succ_self _) _
end

end ShaderLink.Link
