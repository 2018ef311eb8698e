import ShaderLink.Pipeline.Recorder

/-!
# Sessions

A pipeline is held directly, and then its operations are carried out at once, or through a recorder,
and then they wait until they are submitted. The holder can change in the midst of a session: a
direct pipeline is handed to a recorder that has recorded nothing yet, and a recorder hands its
pipeline out again and is gone with all that it has recorded.
-/

set_option autoImplicit false

namespace ShaderLink.Pipeline

/-- What holds a pipeline. -/
inductive Front (β ι π : Type)
  | direct (p : Pipeline β ι π)
  | deferred (r : Recorder β ι π)

/-- What is asked of a front. -/
inductive Action
  | op (op : Op)
  | submit
  /-- The recorder hands its pipeline out. -/
  | release
  /-- The pipeline is handed to a recorder. -/
  | defer

namespace Front

variable {β ι π : Type}

/-- The pipeline that is held; looking at it is never deferred. -/
def pipeline : Front β ι π → Pipeline β ι π
  | direct p => p
  | deferred r => r.pipeline

/-- The number of operations recorded and not yet submitted, at a front that records. -/
def pending : Front β ι π → Option Nat
  | direct _ => none
  | deferred r => some r.pending

/-- Does what is asked. What a front does not offer leaves it as it is. -/
def act [Backend β ι π] (f : Front β ι π) (a : Action) :
    Outcome (Front β ι π) PipelineError Unit :=
  match f, a with
  | direct p, .op op =>
    let o := op.step.run p
    ⟨o.result, direct o.state, o.log⟩
  | direct p, .defer => ⟨.ok (), deferred (.of p), []⟩
  | direct _, .submit | direct _, .release => ⟨.ok (), f, []⟩
  | deferred r, .op op => ⟨.ok (), deferred (r.record op), []⟩
  | deferred r, .submit =>
    let o := Recorder.submit.run r
    ⟨o.result, deferred o.state, o.log⟩
  | deferred r, .release => ⟨.ok (), direct r.pipeline, []⟩
  | deferred _, .defer => ⟨.ok (), f, []⟩

end Front

end ShaderLink.Pipeline
