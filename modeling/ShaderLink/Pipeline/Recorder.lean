import ShaderLink.Pipeline.Op
import ShaderLink.Queue

/-!
# Recording operations

A recorder takes operations for a pipeline without carrying them out. When they are submitted, all
that were recorded since the last time are carried out in order, up to the first that fails.
Recording touches neither the pipeline nor its backend, and looking at the pipeline is never
deferred.
-/

set_option autoImplicit false

namespace ShaderLink.Pipeline

/-- A pipeline with the operations recorded for it. -/
structure Recorder (β ι π : Type) where
  pipeline : Pipeline β ι π
  queue : Queue (Pipeline β ι π) PipelineError

namespace Recorder

variable {β ι π : Type}

/-- The pipeline as a part. -/
def pipelinePart : Part (Recorder β ι π) (Pipeline β ι π) where
  get r := r.pipeline
  put p r := { r with pipeline := p }

/-- Nothing is recorded yet for this pipeline. -/
def of (p : Pipeline β ι π) : Recorder β ι π := ⟨p, .empty⟩

/-- The number of operations recorded and not yet submitted. -/
def pending (r : Recorder β ι π) : Nat := r.queue.size

/-- Records an operation. -/
def record [Backend β ι π] (r : Recorder β ι π) (op : Op) : Recorder β ι π :=
  { r with queue := r.queue.push op.step }

/-- Carries out what is recorded. The record is empty from the start on, so that what a failed
operation leaves undone is gone. -/
def submit : Job (Recorder β ι π) PipelineError Unit := do
  let r ← Job.get
  if r.queue.isEmpty then
    return
  Job.log .debug ("submitting " ++ toString r.pending ++ " pipeline commands")
  let (queue, batch) := r.queue.drain
  Job.modify fun r => { r with queue := queue }
  batch.within pipelinePart id

@[simp] theorem pending_of (p : Pipeline β ι π) : (of p).pending = 0 := rfl

@[simp] theorem pending_record [Backend β ι π] (r : Recorder β ι π) (op : Op) :
    (r.record op).pending = r.pending + 1 := by
  simp [record, pending, Queue.push, Queue.size]

@[simp] theorem pipeline_record [Backend β ι π] (r : Recorder β ι π) (op : Op) :
    (r.record op).pipeline = r.pipeline := rfl

end Recorder

end ShaderLink.Pipeline
