import ShaderLink.Link.Order
import ShaderLink.Program.Render

/-!
# The program of an entry point

An entry point is linked and its modules are written. Linking comes first: only of a module that
links is it asked whether its type becomes a color.
-/

set_option autoImplicit false

namespace ShaderLink.Registry

/-- The program whose entry point is `entry`; it is typed by the last module of its link order. -/
def generate (r : Registry) (entry : String) (precision : Program.Precision) :
    Except BuildError String :=
  match r.linkOrder entry with
  | .error e => .error e
  | .ok modules =>
    match modules.getLast? with
    | none => .error (.unresolvedImport entry none)
    | some m => Program.render modules entry m.returnType precision

end ShaderLink.Registry
