import Std.Data.ExtTreeMap
import ShaderLink.Log
import ShaderLink.Module

/-!
# Registries

A registry holds modules by the name of their export. Registering a module under a name that is
taken replaces the module there, so of several registrations the last one counts.

A registry is determined by what it holds under each name (`ext_get?`): the order in which the
names were first registered leaves no trace in it.
-/

set_option autoImplicit false

namespace ShaderLink

/-- Modules by name, each under its own. -/
structure Registry where
  byName : Std.ExtTreeMap String Module
  /-- A module is held under the name of its export. -/
  name_eq : ∀ (n : String) (m : Module), byName[n]? = some m → m.name = n

/-- What a registration did. -/
structure Registration where
  name : String
  /-- Whether a module was held under that name before. -/
  replaced : Bool
  deriving DecidableEq, Repr

namespace Registration

/-- The log line of a registration. -/
def logLine (r : Registration) : Log.Entry where
  level := .debug
  text := (if r.replaced then "replaced" else "registered") ++ " shader module `" ++ r.name ++ "`"

end Registration

namespace Registry

/-! ## Looking up -/

/-- The module held under a name. -/
def get? (r : Registry) (name : String) : Option Module :=
  r.byName[name]?

/-- Whether a module is held under a name. -/
def contains (r : Registry) (name : String) : Bool :=
  r.byName.contains name

/-- The number of modules held. -/
def size (r : Registry) : Nat :=
  r.byName.size

/-- Whether no module is held. -/
def isEmpty (r : Registry) : Bool :=
  r.size == 0

/-- The names under which modules are held, in the order of their code points. -/
def names (r : Registry) : List String :=
  r.byName.keys

/-- The modules held, in the order of their names. -/
def modules (r : Registry) : List Module :=
  r.byName.toList.map Prod.snd

/-! ## Registering -/

/-- A registry that holds nothing. -/
def empty : Registry where
  byName := ∅
  name_eq := by simp

instance : EmptyCollection Registry := ⟨empty⟩

instance : Inhabited Registry := ⟨empty⟩

/-- Holds `m` under its name, in place of what was there. -/
def insert (r : Registry) (m : Module) : Registry where
  byName := r.byName.insert m.name m
  name_eq n d h := by
    rw [Std.ExtTreeMap.getElem?_insert] at h
    split at h
    · next hn => simp_all
    · exact r.name_eq n d h

/-- Reads a module and holds it. A text that is no module changes nothing. -/
def register (r : Registry) (source : String) : Except BuildError (Registry × Registration) :=
  (Module.parse source).map fun m => (r.insert m, ⟨m.name, r.contains m.name⟩)

/-- Registers texts in order, up to the first that is no module. -/
def registerAll (r : Registry) : List String → Except BuildError (Registry × List Registration)
  | [] => .ok (r, [])
  | source :: rest =>
    match r.register source with
    | .error e => .error e
    | .ok (r', done) => (r'.registerAll rest).map fun p => (p.1, done :: p.2)

/-- The registry of a library: its texts registered in order, starting from nothing. -/
def ofSources (sources : List String) : Except BuildError Registry :=
  (empty.registerAll sources).map Prod.fst

/-! ## What a registry holds -/

theorem name_of_get? {r : Registry} {n : String} {m : Module} (h : r.get? n = some m) :
    m.name = n :=
  r.name_eq n m h

@[simp] theorem get?_empty (n : String) : empty.get? n = none := by simp [get?, empty]

/-- The module just inserted stands under its name, all else as before. -/
theorem get?_insert (r : Registry) (m : Module) (n : String) :
    (r.insert m).get? n = if m.name = n then some m else r.get? n := by
  simp [get?, insert, Std.ExtTreeMap.getElem?_insert]

/-- A text is registered exactly if it is a module; nothing but that module is held anew. -/
theorem register_eq_ok_iff {r r' : Registry} {source : String} {done : Registration} :
    r.register source = .ok (r', done) ↔
      ∃ m, Module.parse source = .ok m ∧ r' = r.insert m ∧ done = ⟨m.name, r.contains m.name⟩ := by
  cases h : Module.parse source <;> simp [register, h, Except.map, eq_comm]

theorem register_eq_error_iff {r : Registry} {source : String} {e : BuildError} :
    r.register source = .error e ↔ Module.parse source = .error e := by
  cases h : Module.parse source <;> simp [register, h, Except.map]

/-- **A registry is what it holds** under each name. -/
theorem ext_get? {r s : Registry} (h : ∀ n, r.get? n = s.get? n) : r = s := by
  cases r with
  | mk a ha =>
    cases s with
    | mk b hb =>
      have hab : a = b := Std.ExtTreeMap.ext_getElem? h
      subst hab
      rfl

theorem contains_eq_isSome (r : Registry) (n : String) : r.contains n = (r.get? n).isSome := by
  simp [contains, get?]

theorem size_insert (r : Registry) (m : Module) :
    (r.insert m).size = if r.contains m.name then r.size else r.size + 1 := by
  simp [size, insert, contains, Std.ExtTreeMap.size_insert]

theorem mem_names_iff {r : Registry} {n : String} : n ∈ r.names ↔ r.contains n = true := by
  simp [names, contains]

theorem mem_modules_iff {r : Registry} {m : Module} : m ∈ r.modules ↔ r.get? m.name = some m := by
  simp only [modules, List.mem_map, Prod.exists, exists_eq_right,
    Std.ExtTreeMap.mem_toList_iff_getElem?_eq_some]
  exact ⟨fun ⟨n, h⟩ => by rw [get?, r.name_eq n m h]; exact h, fun h => ⟨_, h⟩⟩

end Registry

end ShaderLink
