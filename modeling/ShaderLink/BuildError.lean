import ShaderLink.Text.Banner
import ShaderLink.Text.Lines

/-!
# Why a program cannot be built

The causes for which reading, linking or writing shader modules stops, and the report of each.
-/

set_option autoImplicit false

namespace ShaderLink

/-- A cause for which no module or no program can be made. -/
inductive BuildError
  /-- The text of a module exports nothing. -/
  | missingExport (text : String)
  /-- No module is registered under `name`. It was asked for by the module `requestedBy`, or as the
  entry point itself. -/
  | unresolvedImport (name : String) (requestedBy : Option String)
  /-- The module `name` is imported while its own imports are still being linked. -/
  | circularDependency (name : String)
  /-- The entry point `name` returns a type that cannot become a color. -/
  | unsupportedExportType (name returnType : String)
  deriving DecidableEq, Repr

namespace BuildError

/-- The offending text between two banners wider than each of its lines. -/
def enclosed (text : String) : String :=
  let width := Text.bannerWidth (Text.lineSizes text.toList)
  "the following program does not have an export available:\n" ++ Text.banner "Program" width ++
    "\n" ++ text ++ "\n" ++ Text.banner "" width

/-- The report of an error. -/
def message : BuildError → String
  | missingExport text => enclosed text
  | unresolvedImport name (some importer) =>
    "the module \"" ++ importer ++ "\" is expecting \"" ++ name ++ "\" which does not exist"
  | unresolvedImport name none => "the entry point \"" ++ name ++ "\" does not exist"
  | circularDependency name => "adding \"" ++ name ++ "\" would cause a circular dependency"
  | unsupportedExportType name returnType =>
    "export \"" ++ name ++ "\" returns `" ++ returnType ++ "`, which has no output conversion"

end BuildError

end ShaderLink
