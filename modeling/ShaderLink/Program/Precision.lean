/-!
# Precision of numbers

A fragment program states with which precision its numbers are kept.
-/

set_option autoImplicit false

namespace ShaderLink.Program

/-- How precisely a program's numbers are kept. -/
inductive Precision
  | low
  | medium
  | high
  deriving DecidableEq, Repr

namespace Precision

/-- Programs are of medium precision unless something else is asked for. -/
instance : Inhabited Precision := ⟨medium⟩

/-- The word for the precision in shader source. -/
def keyword : Precision → String
  | low => "lowp"
  | medium => "mediump"
  | high => "highp"

end Precision

end ShaderLink.Program
