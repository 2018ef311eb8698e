import ShaderLink.Job
import ShaderLink.Size
import ShaderLink.Uniforms

/-!
# Graphics backends

The pipeline does not draw. It drives a backend, which compiles programs, hands out blank images to
draw into, draws, and turns resources into images. A backend is a state with these operations; each
may fail, and finding a resource may have to wait.
-/

set_option autoImplicit false

namespace ShaderLink

/-- Why a backend did not do what it was asked to. -/
inductive BackendError
  | compile (reason : String)
  | allocate (reason : String)
  | draw (reason : String)
  /-- The resource at `locator` cannot be turned into an image. -/
  | decode (locator reason : String)
  deriving DecidableEq, Repr

/-- The report of an error. -/
def BackendError.message : BackendError → String
  | compile reason => "program compilation failed: " ++ reason
  | allocate reason => "target allocation failed: " ++ reason
  | draw reason => "program execution failed: " ++ reason
  | decode locator reason => "failed to decode image `" ++ locator ++ "`: " ++ reason

/-- Where a draw goes. -/
inductive Destination (ι : Type)
  /-- An image that is not shown. -/
  | image (image : ι)
  /-- What the viewer sees. -/
  | surface
  deriving DecidableEq, Repr

/-- A backend with states in `β`, images in `ι` and compiled programs in `π`. -/
class Backend (β : Type) (ι π : outParam Type) where
  /-- The size of an image. -/
  imageSize : ι → Size
  /-- Compiles the text of a program. -/
  compile (source : String) : Job β BackendError π
  /-- Hands out a blank image to draw into. -/
  createTarget (size : Size) : Job β BackendError ι
  /-- Runs a program over the whole destination; the program samples `input`. -/
  draw (program : π) (input : ι) (output : Destination ι) (uniforms : Uniforms) :
    Job β BackendError Unit
  /-- Turns the resource at a locator into an image. -/
  decode (locator : String) : Job β BackendError ι

end ShaderLink
