import ShaderLink.Pipeline

/-!
# Operations as values

The operations of a pipeline, named without being carried out: they can be recorded, listed and
compared. `Op.step` is the operation that a value names.
-/

set_option autoImplicit false

namespace ShaderLink.Pipeline

/-- An operation of a pipeline with its arguments. -/
inductive Op
  | register (source : String)
  | program (entry : String)
  | apply (entry : String) (given : Uniforms)
  | load (locator : String)
  | present
  | save (name : String)
  | restore (name : String)

variable {β ι π : Type} [Backend β ι π]

/-- The operation that is named; what it answers besides its success is dropped. -/
def Op.step : Op → Step β ι π Unit
  | register source => do let _ ← Pipeline.register source
  | program entry => do let _ ← Pipeline.program entry
  | apply entry given => Pipeline.apply entry given
  | load locator => Pipeline.load locator
  | present => Pipeline.present
  | save name => Pipeline.save name
  | restore name => Pipeline.restore name

/-- What an operation answers when it succeeds. -/
inductive Answer
  | done
  /-- The number of a program. -/
  | number (id : ProgramId)
  /-- The name of a module. -/
  | name (name : String)
  deriving DecidableEq, Repr

/-- The operation that is named, with what it answers. -/
def Op.call : Op → Step β ι π Answer
  | register source => Answer.name <$> Pipeline.register source
  | program entry => Answer.number <$> Pipeline.program entry
  | apply entry given => (fun _ => .done) <$> Pipeline.apply entry given
  | load locator => (fun _ => .done) <$> Pipeline.load locator
  | present => (fun _ => .done) <$> Pipeline.present
  | save name => (fun _ => .done) <$> Pipeline.save name
  | restore name => (fun _ => .done) <$> Pipeline.restore name

theorem Op.step_eq_map_call (op : Op) : (op.step : Step β ι π Unit) = (fun _ => ()) <$> op.call := by
  cases op <;> simp [step, call]

end ShaderLink.Pipeline
