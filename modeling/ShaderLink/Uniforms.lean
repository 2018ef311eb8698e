import ShaderLink.Single

/-!
# Uniforms

The values that a draw hands to its program, by name. They stay in the order in which their names
were first set; setting a name again changes its value in place.

**The laws** (`get?_set`, `names_set`): after setting a name it has the new value, all others have
theirs, and the names are as before or one more at the end.

**Equality.** Two values may be the same in two senses: `=` tells numbers apart that have different
bits, `Uniform.same` compares them as numbers (`Single.same`).
-/

set_option autoImplicit false

namespace ShaderLink

/-- A value: one to four numbers of single precision. -/
inductive Uniform
  | float (x : Single)
  | vec2 (x y : Single)
  | vec3 (x y z : Single)
  | vec4 (x y z w : Single)
  deriving DecidableEq, Inhabited

namespace Uniform

/-- Whether two values have the same number of components, equal as numbers. -/
def same : Uniform → Uniform → Bool
  | float x, float a => x.same a
  | vec2 x y, vec2 a b => x.same a && y.same b
  | vec3 x y z, vec3 a b c => x.same a && y.same b && z.same c
  | vec4 x y z w, vec4 a b c d => x.same a && y.same b && z.same c && w.same d
  | _, _ => false

end Uniform

/-- The entries with `name` set to `value`: in its place if it has one, else at the end. -/
def Uniforms.setEntry (name : String) (value : Uniform) :
    List (String × Uniform) → List (String × Uniform)
  | [] => [(name, value)]
  | (n, v) :: rest => if n = name then (n, value) :: rest else (n, v) :: setEntry name value rest

private theorem names_setEntry (name : String) (value : Uniform) (es : List (String × Uniform)) :
    (Uniforms.setEntry name value es).map Prod.fst =
      if name ∈ es.map Prod.fst then es.map Prod.fst else es.map Prod.fst ++ [name] := by
  induction es with
  | nil => rfl
  | cons e es ih =>
    obtain ⟨n, v⟩ := e
    by_cases h : n = name
    · simp [Uniforms.setEntry, h]
    · have h' : ¬ name = n := fun e => h e.symm
      simp only [Uniforms.setEntry, h, if_false, List.map_cons, ih, List.mem_cons, h', false_or]
      split <;> simp

/-- Values by name, each name once. -/
structure Uniforms where
  entries : List (String × Uniform)
  nodup : (entries.map Prod.fst).Nodup

namespace Uniforms

/-- No values. -/
def empty : Uniforms := ⟨[], List.nodup_nil⟩

instance : EmptyCollection Uniforms := ⟨empty⟩

instance : Inhabited Uniforms := ⟨empty⟩

/-- The names in the order in which they were first set. -/
def names (u : Uniforms) : List String := u.entries.map Prod.fst

/-- The names and values in that order. -/
def toList (u : Uniforms) : List (String × Uniform) := u.entries

/-- The number of names. -/
def size (u : Uniforms) : Nat := u.entries.length

/-- Whether no name is set. -/
def isEmpty (u : Uniforms) : Bool := u.entries.isEmpty

/-- The value of a name. -/
def get? (u : Uniforms) (name : String) : Option Uniform :=
  u.entries.lookup name

/-- Whether a name is set. -/
def contains (u : Uniforms) (name : String) : Bool :=
  (u.get? name).isSome

/-- Sets a name: in its place if it has one, else at the end. -/
def set (u : Uniforms) (name : String) (value : Uniform) : Uniforms where
  entries := setEntry name value u.entries
  nodup := by
    rw [names_setEntry]
    split
    · exact u.nodup
    · next h => exact List.nodup_append.2 ⟨u.nodup, by simp, by
        intro a ha b hb hab
        rw [List.mem_singleton.1 hb] at hab
        exact h (hab ▸ ha)⟩

/-- Sets names in order, so that the last value of a name counts. -/
def setAll (u : Uniforms) (pairs : List (String × Uniform)) : Uniforms :=
  pairs.foldl (fun u p => u.set p.1 p.2) u

/-- The values that setting these pairs in order gives. -/
def ofList (pairs : List (String × Uniform)) : Uniforms :=
  empty.setAll pairs

/-- Sets a name to one number. -/
def float (u : Uniforms) (name : String) (x : Single) : Uniforms := u.set name (.float x)

/-- Sets a name to two numbers. -/
def vec2 (u : Uniforms) (name : String) (x y : Single) : Uniforms := u.set name (.vec2 x y)

/-- Sets a name to three numbers. -/
def vec3 (u : Uniforms) (name : String) (x y z : Single) : Uniforms := u.set name (.vec3 x y z)

/-- Sets a name to four numbers. -/
def vec4 (u : Uniforms) (name : String) (x y z w : Single) : Uniforms :=
  u.set name (.vec4 x y z w)

/-- Whether the same names stand in the same order with the same values, compared as numbers. -/
def same (u v : Uniforms) : Bool :=
  u.size == v.size && (u.entries.zip v.entries).all fun p => p.1.1 == p.2.1 && p.1.2.same p.2.2

/-! ## What setting does -/

theorem names_set (u : Uniforms) (name : String) (value : Uniform) :
    (u.set name value).names = if name ∈ u.names then u.names else u.names ++ [name] :=
  names_setEntry ..

private theorem lookup_entry (n m : String) (v : Uniform) (es : List (String × Uniform)) :
    ((m, v) :: es).lookup n = if n = m then some v else es.lookup n := by
  rw [List.lookup_cons]
  by_cases h : n = m
  · simp [h]
  · simp [h, beq_eq_false_iff_ne.2 h]

private theorem lookup_setEntry (name n : String) (value : Uniform) (es : List (String × Uniform)) :
    (setEntry name value es).lookup n = if n = name then some value else es.lookup n := by
  induction es with
  | nil => exact lookup_entry ..
  | cons e es ih =>
    obtain ⟨m, v⟩ := e
    rw [setEntry]
    split
    · next h => simp only [lookup_entry, h]; split <;> rfl
    · next h => simp only [lookup_entry, ih]; grind

/-- A name that was just set has that value, every other name has the value it had. -/
theorem get?_set (u : Uniforms) (name n : String) (value : Uniform) :
    (u.set name value).get? n = if n = name then some value else u.get? n :=
  lookup_setEntry ..

theorem contains_iff_mem_names {u : Uniforms} {n : String} :
    u.contains n = true ↔ n ∈ u.names := by
  rw [contains, get?, List.lookup_isSome_iff]
  simp [names]

/-- A name that is not set yet comes at the end. -/
theorem toList_set_of_not_mem {u : Uniforms} {name : String} (h : name ∉ u.names)
    (value : Uniform) : (u.set name value).toList = u.toList ++ [(name, value)] := by
  have key : ∀ es : List (String × Uniform), name ∉ es.map Prod.fst →
      setEntry name value es = es ++ [(name, value)] := by
    intro es
    induction es with
    | nil => simp [setEntry]
    | cons e es ih =>
      obtain ⟨n, v⟩ := e
      intro hn
      simp only [List.map_cons, List.mem_cons, not_or] at hn
      rw [setEntry, if_neg (Ne.symm hn.1), ih hn.2, List.cons_append]
  exact key u.entries h

end Uniforms

end ShaderLink
