import ShaderLink.Backend
import ShaderLink.BuildError

/-!
# Why an operation of a pipeline fails

A program could not be built, the backend did not do its part, or an image was asked for that was
never saved. The first two are reported in the words of their own causes. A last cause stands for a
defect of the pipeline itself, which has no way on from it: a program is run by a number that is not
the number of any.
-/

set_option autoImplicit false

namespace ShaderLink

/-- A cause for which an operation of a pipeline fails. -/
inductive PipelineError
  | build (cause : BuildError)
  | backend (cause : BackendError)
  /-- No image is saved under `name`. -/
  | unknownBuffer (name : String)
  /-- No program has the number. -/
  | unknownProgram (number : Nat)
  deriving DecidableEq, Repr

namespace PipelineError

/-- The report of an error. -/
def message : PipelineError → String
  | build cause => cause.message
  | backend cause => cause.message
  | unknownBuffer name => "no buffer saved under \"" ++ name ++ "\""
  | unknownProgram _ => "invalid program id"

instance : ToString PipelineError := ⟨message⟩

end PipelineError

end ShaderLink
