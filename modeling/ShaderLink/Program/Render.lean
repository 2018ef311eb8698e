import ShaderLink.Identifier
import ShaderLink.Module
import ShaderLink.Program.OutputType
import ShaderLink.Program.Precision
import ShaderLink.Text.Occurrence

/-!
# The text of a program

A program is written from modules that are in order already: the precision and the coordinate, the
sampler if a module names it, one section for each module, and a `main` that calls the entry point
and turns its result into a color.

**What it does not establish.** Order and completeness of the modules are the caller's; the text of
a module goes into its section as it is.
-/

set_option autoImplicit false

namespace ShaderLink.Program

/-- What every program starts with. -/
def preamble (precision : Precision) : String :=
  "precision " ++ precision.keyword ++ " float;\nvarying vec2 " ++ Identifier.coordinate ++ ";\n"

/-- Whether a module samples the image. -/
def samples (modules : List Module) : Bool :=
  modules.any fun m => Text.mentions m.body Identifier.texture

/-- The declaration of the sampler, for programs that sample. -/
def sampler (modules : List Module) : String :=
  if samples modules then "uniform sampler2D " ++ Identifier.texture ++ ";\n" else ""

/-- The common width of the banners over these modules. -/
def bannerWidth (modules : List Module) : Nat :=
  Text.bannerWidth (modules.map fun m => m.name.utf8ByteSize)

/-- The section of one module under a banner of that width. -/
def moduleSection (width : Nat) (m : Module) : String :=
  "\n" ++ Text.banner m.name width ++ "\n" ++ m.body ++ "\n"

/-- The sections of all modules in order. -/
def sections (modules : List Module) : String :=
  String.join (modules.map (moduleSection (bannerWidth modules)))

/-- The function that runs: it calls `entry` and writes the color. -/
def mainFunction (entry : String) (type : OutputType) : String :=
  "\nvoid main() ".push '{' ++ "\n" ++ type.statements entry ++ "\n".push '}' ++ "\n"

/-- The whole program. -/
def text (modules : List Module) (entry : String) (type : OutputType) (precision : Precision) :
    String :=
  preamble precision ++ sampler modules ++ sections modules ++ mainFunction entry type

/-- The program over these modules whose entry point returns `returnType`, which must be a type
that becomes a color. -/
def render (modules : List Module) (entry returnType : String) (precision : Precision) :
    Except BuildError String :=
  match OutputType.ofKeyword? returnType with
  | some type => .ok (text modules entry type precision)
  | none => .error (.unsupportedExportType entry returnType)

theorem render_eq_ok_iff {modules : List Module} {entry returnType : String}
    {precision : Precision} {program : String} :
    render modules entry returnType precision = .ok program ↔
      ∃ type : OutputType, returnType = type.keyword ∧
        text modules entry type precision = program := by
  unfold render
  cases h : OutputType.ofKeyword? returnType with
  | none =>
    simp only [reduceCtorEq, false_iff, not_exists, not_and]
    rintro type rfl
    rw [OutputType.ofKeyword?_keyword] at h
    cases h
  | some t =>
    have ht := OutputType.ofKeyword?_eq_some_iff.1 h
    constructor
    · intro hp
      exact ⟨t, ht, Except.ok.inj hp⟩
    · rintro ⟨type, hr, rfl⟩
      have : t = type := by
        have h' := OutputType.ofKeyword?_keyword type
        rw [← hr, h] at h'
        exact Option.some.inj h'
      rw [this]

end ShaderLink.Program
