import ShaderLink.BuildError
import ShaderLink.Declaration
import ShaderLink.Line

/-!
# Shader modules

A module is a piece of shader source that exports one function and may import the functions of
other modules. It is read from annotated text: the directives say what it exports and imports, and
all else is kept as it stands, line by line and trimmed.

**What it does not establish.** Source is not parsed beyond its directives, so a module may declare
in its body what it does not say, and a text that exports twice is one module, named by its last
export, with both texts in its body.
-/

set_option autoImplicit false

namespace ShaderLink

/-- A unit of shader source that other modules can import. -/
structure Module where
  /-- The exported function, by which other modules import this one. -/
  name : String
  /-- What that function returns, as the source spells it. -/
  returnType : String
  /-- The source without its directives. -/
  body : String
  /-- The names of the modules that this one needs, in the order of their lines. -/
  imports : List String
  deriving DecidableEq, Repr

namespace Module

/-- The last declaration that is exported. -/
def exported? (ls : List Line) : Option Declaration :=
  (ls.filterMap Line.exported?).getLast?.map Declaration.ofText

/-- The names that are imported, in order. -/
def importsOf (ls : List Line) : List String :=
  (ls.filterMap Line.imported?).map String.ofList

/-- What the lines keep, from the first line that keeps something. -/
def bodyOf (ls : List Line) : List (List Char) :=
  (ls.map Line.kept).dropWhile List.isEmpty

/-- The module that lines make, if they export something. -/
def ofLines? (ls : List Line) : Option Module :=
  (exported? ls).map fun d =>
    { name := d.name
      returnType := d.returnType
      body := String.ofList (Text.join (bodyOf ls))
      imports := importsOf ls }

/-- The lines of a module's text. -/
def readLines (source : String) : List Line :=
  (Text.lines source.toList).map Line.read

/-- Reads a module from its text. -/
def parse (source : String) : Except BuildError Module :=
  match ofLines? (readLines source) with
  | some m => .ok m
  | none => .error (.missingExport source)

/-- The only fault of a text is that it exports nothing. -/
theorem parse_eq_error_iff {source : String} {e : BuildError} :
    parse source = .error e ↔ exported? (readLines source) = none ∧ e = .missingExport source := by
  unfold parse ofLines?
  cases exported? (readLines source) <;> simp [eq_comm]

theorem parse_eq_ok_iff {source : String} {m : Module} :
    parse source = .ok m ↔ ofLines? (readLines source) = some m := by
  unfold parse
  cases ofLines? (readLines source) <;> simp

end Module

end ShaderLink
