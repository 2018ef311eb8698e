import ShaderLink.Queue

/-!
# Sessions with a queue

A queue is used over and over on one state: jobs are pushed whenever there is something to do, and
drained when the owner can wait for them. Who drains has the queue and the state to itself until the
last job has come to its end.
-/

set_option autoImplicit false

namespace ShaderLink.Queue

/-- A queue and the state that its jobs work on. -/
structure Session (σ ε : Type) where
  queue : Queue σ ε
  state : σ

/-- What is asked of a queue. -/
inductive Request (σ ε : Type)
  | push (j : Job σ ε Unit)
  | drain

namespace Session

variable {σ ε : Type}

/-- The state as a part. -/
def statePart : Part (Session σ ε) σ where
  get x := x.state
  put s x := { x with state := s }

/-- Nothing is pushed yet. -/
def of (s : σ) : Session σ ε := ⟨.empty, s⟩

/-- Runs what was pushed. The queue is empty from the start on, so that what a failed job leaves
undone is gone. -/
def drain [ToString ε] : Job (Session σ ε) ε Unit := do
  let x ← Job.get
  let (queue, batch) := x.queue.drain
  Job.modify fun x => { x with queue := queue }
  batch.within statePart id

/-- Does what is asked. -/
def ask [ToString ε] : Request σ ε → Job (Session σ ε) ε Unit
  | .push j => Job.modify fun x => { x with queue := x.queue.push j }
  | .drain => drain

/-- The session after requests, each done to its end. -/
def after [ToString ε] (x : Session σ ε) (requests : List (Request σ ε)) : Session σ ε :=
  requests.foldl (fun x r => ((ask r).run x).state) x

end Session

end ShaderLink.Queue
