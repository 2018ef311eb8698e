import ShaderLink.Link.Walk

/-!
# The order in which modules are linked

The modules that an entry point needs, each after the modules that it imports. Where there is no
such order, linking says which import is missing or which module closes a cycle, whichever the walk
along the imports comes to first.
-/

set_option autoImplicit false

namespace ShaderLink.Registry

/-- The modules that `entry` needs, itself among them, in the order in which they are written. -/
def linkOrder (r : Registry) (entry : String) : Except BuildError (List Module) :=
  match r.get? entry with
  | none => .error (.unresolvedImport entry none)
  | some m => ((Link.Walk.start m).run r).map Array.toList

end ShaderLink.Registry
