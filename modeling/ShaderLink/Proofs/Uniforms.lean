import Mathlib.Data.Finset.Card
import ShaderLink.Proofs.Lists
import ShaderLink.Uniforms

/-!
# Values by the order of their names

Values are given by name, in a list or one at a time, and a name may be given again and again.

**The law** (`collected_of_settings`): however they are given, the values are kept under each name once,
in the order in which the names came up first, and each is the value given last under its name. All that
can be asked of them agrees with that, and setting the entries anew gives the same values.

Names and values are told apart in the proof. For the names, setting one more is removing repetitions
with one more at the end (`names_ofList`). For a value, pairs of other names leave it
(`get?_setAll_of_notMem`), so that the last pair of its name decides (`get?_setAll_of_givenLast`).

**What it does not establish.** Values are kept bit for bit (`Uniform.bits_inj`), so nothing is said here
of what they are as numbers.
-/

set_option autoImplicit false

namespace ShaderLink

/-! ## Values -/

/-- The bits of the numbers of a value. There are as many numbers as its kind has. -/
def Uniform.bits : Uniform → List UInt32
  | float x => [x.bits]
  | vec2 x y => [x.bits, y.bits]
  | vec3 x y z => [x.bits, y.bits, z.bits]
  | vec4 x y z w => [x.bits, y.bits, z.bits, w.bits]

theorem Single.bits_inj {x y : Single} : x.bits = y.bits ↔ x = y :=
  Single.ext_iff.symm

/-- **Values with the same bits are the same**, kind included. -/
theorem Uniform.bits_inj {v w : Uniform} : v.bits = w.bits ↔ v = w := by
  cases v <;> cases w <;> simp [bits, Single.bits_inj]

/-- Two patterns that are not a number are two values. -/
example : Uniform.float ⟨0x7fc00000⟩ ≠ .float ⟨0xffc00000⟩ := by decide

namespace Uniforms

variable {u : Uniforms} {pairs : List (String × Uniform)} {name : String} {value : Uniform}

/-! ## Ways to give a value -/

/-- A call that gives a name a value: of any kind, or of the kind that the call is for. -/
inductive Setting
  | set (name : String) (value : Uniform)
  | float (name : String) (x : Single)
  | vec2 (name : String) (x y : Single)
  | vec3 (name : String) (x y z : Single)
  | vec4 (name : String) (x y z w : Single)

/-- The name and the value that a call is given. -/
def Setting.pair : Setting → String × Uniform
  | set name value => (name, value)
  | float name x => (name, .float x)
  | vec2 name x y => (name, .vec2 x y)
  | vec3 name x y z => (name, .vec3 x y z)
  | vec4 name x y z w => (name, .vec4 x y z w)

/-- The values after a call. -/
def Setting.apply (u : Uniforms) : Setting → Uniforms
  | set name value => u.set name value
  | float name x => u.float name x
  | vec2 name x y => u.vec2 name x y
  | vec3 name x y z => u.vec3 name x y z
  | vec4 name x y z w => u.vec4 name x y z w

/-- The values after calls, made in order. -/
def after (u : Uniforms) (settings : List Setting) : Uniforms :=
  settings.foldl Setting.apply u

theorem Setting.apply_eq_set (u : Uniforms) (s : Setting) : s.apply u = u.set s.pair.1 s.pair.2 := by
  cases s <;> rfl

@[simp] theorem setAll_nil (u : Uniforms) : u.setAll [] = u := rfl

@[simp] theorem setAll_cons (u : Uniforms) (pair : String × Uniform)
    (pairs : List (String × Uniform)) :
    u.setAll (pair :: pairs) = (u.set pair.1 pair.2).setAll pairs := rfl

theorem setAll_append (u : Uniforms) (pairs more : List (String × Uniform)) :
    u.setAll (pairs ++ more) = (u.setAll pairs).setAll more :=
  List.foldl_append

theorem after_eq_setAll (u : Uniforms) (settings : List Setting) :
    u.after settings = u.setAll (settings.map Setting.pair) := by
  induction settings generalizing u with
  | nil => rfl
  | cons s settings ih =>
    rw [List.map_cons, setAll_cons, ← Setting.apply_eq_set]
    exact ih (s.apply u)

/-- **It makes no difference how values are given.** -/
theorem after_ofList (front : List (String × Uniform)) (settings : List Setting) :
    (ofList front).after settings = ofList (front ++ settings.map Setting.pair) := by
  rw [after_eq_setAll, ofList, ofList, setAll_append]

/-! ## Names -/

/-- **The names are those given, in the order in which they came up first.** -/
theorem names_ofList (pairs : List (String × Uniform)) :
    (ofList pairs).names = (pairs.map Prod.fst).eraseDups := by
  induction pairs using List.reverseRecOn with
  | nil => rfl
  | append_singleton pairs pair ih =>
    have concat : ofList (pairs ++ [pair]) = (ofList pairs).set pair.1 pair.2 :=
      setAll_append empty pairs [pair]
    have known : pair.1 ∈ (ofList pairs).names ↔ pair.1 ∈ pairs.map Prod.fst := by
      rw [ih, List.mem_eraseDups]
    rw [concat, names_set, List.map_append, List.map_singleton]
    split
    · next h => rw [ih, eraseDups_concat_of_mem (known.1 h)]
    · next h => rw [ih, eraseDups_concat_of_notMem (mt known.2 h)]

theorem size_eq_card_names (u : Uniforms) : u.size = u.names.toFinset.card := by
  rw [List.toFinset_card_of_nodup (show u.names.Nodup from u.nodup), names, List.length_map, size]

/-! ## The value given last -/

/-- **The value given last under a name.** -/
def GivenLast (pairs : List (String × Uniform)) (name : String) (value : Uniform) : Prop :=
  ∃ front back, pairs = front ++ (name, value) :: back ∧ name ∉ back.map Prod.fst

/-- Pairs of other names leave a value. -/
theorem get?_setAll_of_notMem (other : name ∉ pairs.map Prod.fst) :
    (u.setAll pairs).get? name = u.get? name := by
  induction pairs generalizing u with
  | nil => rfl
  | cons pair pairs ih =>
    rw [List.map_cons, List.mem_cons, not_or] at other
    rw [setAll_cons, ih other.2, get?_set, if_neg other.1]

/-- The last pair of a name decides about its value. -/
theorem get?_setAll_of_givenLast (u : Uniforms) (last : GivenLast pairs name value) :
    (u.setAll pairs).get? name = some value := by
  obtain ⟨front, back, rfl, other⟩ := last
  rw [setAll_append, setAll_cons, get?_setAll_of_notMem other, get?_set, if_pos rfl]

theorem exists_givenLast (given : name ∈ pairs.map Prod.fst) :
    ∃ value, GivenLast pairs name value := by
  obtain ⟨front, ⟨n, value⟩, back, split, rfl, other⟩ :=
    exists_split_last (P := fun pair : String × Uniform => pair.1 = name) (List.mem_map.1 given)
  refine ⟨value, front, back, split, fun again => ?_⟩
  obtain ⟨pair, mem, same⟩ := List.mem_map.1 again
  exact other pair mem same

theorem get?_ofList_eq_none_iff :
    (ofList pairs).get? name = none ↔ name ∉ pairs.map Prod.fst := by
  constructor
  · intro none given
    obtain ⟨value, last⟩ := exists_givenLast given
    rw [ofList, get?_setAll_of_givenLast empty last] at none
    cases none
  · exact fun other => get?_setAll_of_notMem other

theorem get?_ofList_eq_some_iff :
    (ofList pairs).get? name = some value ↔ GivenLast pairs name value := by
  constructor
  · intro known
    by_cases given : name ∈ pairs.map Prod.fst
    · obtain ⟨value', last⟩ := exists_givenLast given
      rw [ofList, get?_setAll_of_givenLast empty last, Option.some.injEq] at known
      exact known ▸ last
    · rw [get?_ofList_eq_none_iff.2 given] at known
      cases known
  · exact get?_setAll_of_givenLast empty

/-! ## Entries -/

/-- An entry is found under its name, which no other entry has. -/
theorem mem_toList_iff : (name, value) ∈ u.toList ↔ u.get? name = some value := by
  rw [toList, get?, List.lookup_eq_some_iff]
  constructor
  · intro mem
    obtain ⟨front, back, split⟩ := List.append_of_mem mem
    have unique := u.nodup
    rw [split, List.map_append, List.map_cons, List.nodup_append] at unique
    refine ⟨front, back, split, fun pair hpair => ?_⟩
    have ne := unique.2.2 pair.1 (List.mem_map_of_mem hpair) name List.mem_cons_self
    exact bne_iff_ne.2 (Ne.symm ne)
  · rintro ⟨front, back, split, -⟩
    simp [split]

/-- Pairs of names that are new are added as they are. -/
theorem toList_setAll_of_nodup (new : (u.names ++ pairs.map Prod.fst).Nodup) :
    (u.setAll pairs).toList = u.toList ++ pairs := by
  induction pairs generalizing u with
  | nil => simp
  | cons pair pairs ih =>
    rw [List.map_cons] at new
    have first : pair.1 ∉ u.names := fun mem =>
      (List.nodup_append.1 new).2.2 _ mem _ List.mem_cons_self rfl
    have rest : ((u.set pair.1 pair.2).names ++ pairs.map Prod.fst).Nodup := by
      rwa [names_set, if_neg first, List.append_assoc, List.singleton_append]
    rw [setAll_cons, ih rest, toList_set_of_not_mem first, List.append_assoc, List.singleton_append]

/-- Values with the same entries are the same. -/
theorem toList_inj {v w : Uniforms} : v.toList = w.toList ↔ v = w := by
  cases v
  cases w
  simp [toList]

/-- **Setting the entries anew gives the same values.** -/
theorem ofList_toList (u : Uniforms) : ofList u.toList = u :=
  toList_inj.1 (toList_setAll_of_nodup (u := empty) u.nodup)

/-! ## The law -/

/-- **What can be asked of values** that were given by these pairs in order. -/
structure Collected (pairs : List (String × Uniform)) (u : Uniforms) : Prop where
  /-- Each name is listed once, -/
  unique : u.names.Nodup
  /-- if it was given, -/
  listed : ∀ name, name ∈ u.names ↔ name ∈ pairs.map Prod.fst
  /-- and before all names that came up after it. -/
  inOrder : u.names.Pairwise fun a b => (pairs.map Prod.fst).idxOf a < (pairs.map Prod.fst).idxOf b
  /-- With it stands the value given last, -/
  entries : ∀ name value, (name, value) ∈ u.toList ↔ GivenLast pairs name value
  /-- which is also what is found under it. -/
  found : ∀ name value, u.get? name = some value ↔ GivenLast pairs name value
  /-- Under a name that was not given nothing is found. -/
  missing : ∀ name, u.get? name = none ↔ name ∉ pairs.map Prod.fst
  contains : ∀ name, u.contains name = false ↔ name ∉ pairs.map Prod.fst
  /-- There are as many values as there are names. -/
  size : u.size = (pairs.map Prod.fst).toFinset.card
  isEmpty : u.isEmpty = true ↔ u.size = 0
  /-- Setting the entries anew gives the same values. -/
  again : ofList u.toList = u

theorem collected_ofList (pairs : List (String × Uniform)) : Collected pairs (ofList pairs) where
  unique := (ofList pairs).nodup
  listed name := by rw [names_ofList, List.mem_eraseDups]
  inOrder := by
    rw [names_ofList]
    exact pairwise_idxOf_eraseDups _
  entries name value := by rw [mem_toList_iff, get?_ofList_eq_some_iff]
  found name value := get?_ofList_eq_some_iff
  missing name := get?_ofList_eq_none_iff
  contains name := by
    rw [contains, Option.isSome_eq_false_iff, Option.isNone_iff_eq_none, get?_ofList_eq_none_iff]
  size := by
    have same : (ofList pairs).names.toFinset = (pairs.map Prod.fst).toFinset := by
      ext name
      rw [List.mem_toFinset, List.mem_toFinset, names_ofList, List.mem_eraseDups]
    rw [size_eq_card_names, same]
  isEmpty := by rw [isEmpty, size, List.isEmpty_iff, List.length_eq_zero_iff]
  again := ofList_toList _

/-- **Values are kept in the order in which their names came up first, and each is the one given last**,
whether they are given in a list, by any of the calls, or first in a list and then by calls. Two values
are the same exactly if they are of one kind and their numbers have the same bits. -/
theorem collected_of_settings (front : List (String × Uniform)) (settings : List Setting) :
    Collected (front ++ settings.map Setting.pair) ((ofList front).after settings) ∧
      ∀ v w : Uniform, v = w ↔ v.bits = w.bits := by
  rw [after_ofList]
  exact ⟨collected_ofList _, fun v w => Uniform.bits_inj.symm⟩

example :
    let u := (ofList [("uWidth", .float 500), ("uOffset", .vec2 1 2)]).float "uWidth" 700
    u.toList = [("uWidth", .float 700), ("uOffset", .vec2 1 2)] := by
  decide

end Uniforms

end ShaderLink
