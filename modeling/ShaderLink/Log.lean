/-!
# Log lines

What the library does beside its results it reports as log lines, a level and a text. They are
values: an operation returns the lines it writes, in order, and the host decides where they go.
-/

set_option autoImplicit false

namespace ShaderLink.Log

/-- How much detail a reader wants to see before a line is of interest. -/
inductive Level
  /-- What was done. -/
  | debug
  /-- What was done, with the material it was done to. -/
  | trace
  deriving DecidableEq, Repr, Inhabited

/-- One log line. -/
structure Entry where
  level : Level
  text : String
  deriving DecidableEq, Repr, Inhabited

end ShaderLink.Log
