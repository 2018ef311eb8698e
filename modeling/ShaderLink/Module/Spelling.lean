import ShaderLink.Module

/-!
# The text of a module

A module has a text from which it is read: its imports first, then its body, one line of which
carries the export and every other one the keyword of an overload, which reading takes away again.
With the keyword in front a line is safe whatever it starts with.

Which modules this serves is said by `WellFormed`: those that reading can produce.
-/

set_option autoImplicit false

namespace ShaderLink.Module

/-- The lines of the body. -/
def bodyLines (m : Module) : List (List Char) :=
  Text.pieces m.body.toList

/-- What the module exports. -/
def declaration (m : Module) : Declaration where
  returnType := m.returnType
  name := m.name

/-- A line of the body under the keyword of an overload, or blank. -/
def overloaded (text : List Char) : Line :=
  if text = [] then .blank else .overloads text

/-- The lines of a body: the first that declares `d` exports it, the others are overloads. -/
def marked (d : Declaration) : List (List Char) → List Line
  | [] => []
  | text :: rest =>
    if text ≠ [] ∧ Declaration.ofText text = d then .exports text :: rest.map overloaded
    else overloaded text :: marked d rest

/-- The lines of a text for the module: its imports, then its body with the export marked. -/
def spelledLines (m : Module) : List Line :=
  m.imports.map (fun n => .imports n.toList) ++ marked m.declaration m.bodyLines

/-- A text for the module, each line ended by a line feed. -/
def spelled (m : Module) : String :=
  String.ofList (Text.terminated (m.spelledLines.map (·.spelled [])))

/-- A name that an import line can carry. -/
def ImportName (n : List Char) : Prop :=
  n ≠ [] ∧ Text.Trimmed n ∧ '\n' ∉ n

instance (n : List Char) : Decidable (ImportName n) :=
  inferInstanceAs (Decidable (_ ∧ _))

/-- A well formed module imports names that lines can carry, its body starts with a line that is
not empty and has trimmed lines only, and one of them declares what it exports. -/
structure WellFormed (m : Module) : Prop where
  imports : ∀ n ∈ m.imports, ImportName n.toList
  trimmed : ∀ l ∈ m.bodyLines, Text.Trimmed l
  head : ∀ l ∈ m.bodyLines.head?, l ≠ []
  declared : ∃ l ∈ m.bodyLines, l ≠ [] ∧ Declaration.ofText l = m.declaration

end ShaderLink.Module
