import ShaderLink.Builtin
import ShaderLink.Pipeline.Error
import ShaderLink.Pipeline.Programs
import ShaderLink.Program.Generate
import ShaderLink.Text.Listing

/-!
# Image pipelines

A pipeline has a current image, which programs are run over one after the other: each run reads the
current image and draws a new one, which is then the current image. Images can be loaded, shown, and
saved under a name to come back to. Programs are built by their entry point when first needed and
kept from then on, whatever is registered later.

An operation that fails leaves the current image, the saved images and the registry as they are. A
program that was built stays built, even if the draw it was built for fails.
-/

set_option autoImplicit false

namespace ShaderLink

/-- What a pipeline is told at its creation. -/
structure Options where
  /-- The size of every image that it draws. -/
  size : Size
  /-- The precision of every program that it builds. -/
  precision : Program.Precision
  deriving DecidableEq, Repr

/-- The state of an image pipeline over a backend with states in `β`, images in `ι` and compiled
programs in `π`. -/
structure Pipeline (β ι π : Type) where
  backend : β
  registry : Registry
  options : Options
  /-- The programs built. -/
  programs : Programs π
  /-- The numbers of the programs built, by their entry points. -/
  cache : Std.ExtTreeMap String ProgramId
  /-- The image that the next program reads. -/
  current : ι
  /-- The images saved, by name. -/
  saved : Std.ExtTreeMap String ι

namespace Pipeline

variable {β ι π : Type}

/-- The backend as a part of the pipeline. -/
def backendPart : Part (Pipeline β ι π) β where
  get p := p.backend
  put b p := { p with backend := b }

/-- An operation on a pipeline. -/
abbrev Step (β ι π α : Type) := Job (Pipeline β ι π) PipelineError α

/-- What the backend does, as an operation on the pipeline. -/
def onBackend {α : Type} (j : Job β BackendError α) : Step β ι π α :=
  j.within backendPart .backend

/-- A result of building, as an operation on the pipeline. -/
def ofBuild {α : Type} (x : Except BuildError α) : Step β ι π α :=
  Job.ofExcept (x.mapError .build)

/-! ## Looking at a pipeline -/

/-- The number of the program built for an entry point. -/
def cached? (p : Pipeline β ι π) (entry : String) : Option ProgramId :=
  p.cache[entry]?

/-- The image saved under a name. -/
def saved? (p : Pipeline β ι π) (name : String) : Option ι :=
  p.saved[name]?

/-- The program for an entry point that registry and options give now. -/
def generate (p : Pipeline β ι π) (entry : String) : Except BuildError String :=
  p.registry.generate entry p.options.precision

/-- The values that a draw hands to a program: the size of a texel of the current image comes after
those given, if the program mentions it and no value of that name is given. -/
def uniformsFor [Backend β ι π] (p : Pipeline β ι π) (k : KeptProgram π) (given : Uniforms) :
    Uniforms :=
  if k.usesTexelSize && !given.contains Identifier.texelSize then
    let texel := (Backend.imageSize β p.current).texel
    given.vec2 Identifier.texelSize texel.1 texel.2
  else given

/-! ## Operations -/

variable [Backend β ι π]

/-- A pipeline over this registry; its current image is blank at first. -/
def create (backend : β) (registry : Registry) (options : Options) :
    Outcome β PipelineError (Pipeline β ι π) :=
  let target := (Backend.createTarget options.size).run backend
  { result := (target.result.mapError .backend).map fun image =>
      { backend := target.state
        registry := registry
        options := options
        programs := ∅
        cache := ∅
        current := image
        saved := ∅ }
    state := target.state
    log := target.log }

/-- Registers a module and answers its name. -/
def register (source : String) : Step β ι π String := do
  let p ← Job.get
  let (registry, done) ← ofBuild (p.registry.register source)
  Job.log done.logLine.level done.logLine.text
  Job.modify fun p => { p with registry := registry }
  return done.name

/-- A program just compiled from `source`, as it is kept. -/
def keep (source : String) (compiled : π) : KeptProgram π where
  compiled := compiled
  usesTexelSize := Text.mentions source Identifier.texelSize

/-- Generates and compiles the program of an entry point, keeps it, and answers its number. -/
def compile (entry : String) : Step β ι π ProgramId := do
  let p ← Job.get
  let source ← ofBuild (p.generate entry)
  Job.log .debug ("compiling program `" ++ entry ++ "`")
  Job.log .trace ("program `" ++ entry ++ "` source:\n" ++ Text.listing source)
  let compiled ← onBackend (Backend.compile source)
  let (programs, id) := p.programs.insert (keep source compiled)
  Job.modify fun p => { p with programs := programs, cache := p.cache.insert entry id }
  return id

/-- The number of the program of an entry point, which is built when it is first asked for. -/
def program (entry : String) : Step β ι π ProgramId := do
  let p ← Job.get
  match p.cached? entry with
  | some id =>
    Job.log .trace ("program `" ++ entry ++ "` served from cache")
    return id
  | none => compile entry

/-- Runs a program over a destination; it samples the current image. -/
def draw (id : ProgramId) (output : Destination ι) (given : Uniforms) : Step β ι π Unit := do
  let p ← Job.get
  match p.programs.get? id with
  | none => Job.fail (.unknownProgram id.number)
  | some k => onBackend (Backend.draw k.compiled p.current output (p.uniformsFor k given))

/-- Runs the program of an entry point over the current image into a new one, which becomes the
current image once it is drawn. -/
def apply (entry : String) (given : Uniforms) : Step β ι π Unit := do
  let id ← program entry
  let p ← Job.get
  let target ← onBackend (Backend.createTarget p.options.size)
  draw id (.image target) given
  Job.modify fun p => { p with current := target }

/-- Makes the image of a resource the current image. -/
def load (locator : String) : Step β ι π Unit := do
  Job.log .debug ("loading image `" ++ locator ++ "`")
  let image ← onBackend (Backend.decode locator)
  Job.modify fun p => { p with current := image }

/-- Shows the current image. -/
def present : Step β ι π Unit := do
  let id ← program Builtin.passEntry
  draw id .surface ∅

/-- Saves the current image under a name, in place of the one saved there before. -/
def save (name : String) : Step β ι π Unit := do
  Job.log .debug ("saving buffer `" ++ name ++ "`")
  Job.modify fun p => { p with saved := p.saved.insert name p.current }

/-- Makes the image saved under a name the current image. -/
def restore (name : String) : Step β ι π Unit := do
  let p ← Job.get
  match p.saved? name with
  | none => Job.fail (.unknownBuffer name)
  | some image =>
    Job.log .debug ("loading buffer `" ++ name ++ "`")
    Job.modify fun p => { p with current := image }

end Pipeline

end ShaderLink
