import ShaderLink.Job

/-!
# Queues of jobs

Jobs on one state wait in a queue in the order in which they are pushed. Draining takes the whole
queue as a batch and runs it in that order, each job to its end before the next one starts, up to
the first that fails; the rest of the batch is dropped.

**The law** (`runBatch_cons`): a batch is its first job and, unless that fails, the batch of the
others, counted on from there.
-/

set_option autoImplicit false

namespace ShaderLink

/-- Jobs that wait to be run, the one pushed first in front. -/
structure Queue (σ ε : Type) where
  jobs : Array (Job σ ε Unit)

namespace Queue

variable {σ ε : Type}

/-- A queue that holds nothing. -/
def empty : Queue σ ε := ⟨#[]⟩

instance : EmptyCollection (Queue σ ε) := ⟨empty⟩

instance : Inhabited (Queue σ ε) := ⟨empty⟩

/-- Adds a job at the end. -/
def push (q : Queue σ ε) (j : Job σ ε Unit) : Queue σ ε := ⟨q.jobs.push j⟩

/-- The jobs, the next one first. -/
def toList (q : Queue σ ε) : List (Job σ ε Unit) := q.jobs.toList

/-- The number of jobs that wait. -/
def size (q : Queue σ ε) : Nat := q.jobs.size

/-- Whether no job waits. -/
def isEmpty (q : Queue σ ε) : Bool := q.jobs.isEmpty

/-- The text of the log line about job `i` of a batch of `total`, which failed with `e`. -/
def failureText [ToString ε] (i total : Nat) (e : ε) : String :=
  "command " ++ toString i ++ " of " ++ toString total ++ " failed: " ++ toString e

/-- One job of a batch: the failure of the job is logged and stays its failure. -/
def runOne [ToString ε] (total i : Nat) (j : Job σ ε Unit) : Job σ ε Unit := do
  match ← j.attempt with
  | .ok () => pure ()
  | .error e =>
    Job.log .debug (failureText i total e)
    Job.fail e

/-- The jobs of a batch of `total` in order, the first of them counted as number `i`. -/
def runBatch [ToString ε] (total : Nat) : Nat → List (Job σ ε Unit) → Job σ ε Unit
  | _, [] => pure ()
  | i, j :: rest => do
    runOne total i j
    runBatch total (i + 1) rest

/-- The queue without its jobs, and the job of running them. -/
def drain [ToString ε] (q : Queue σ ε) : Queue σ ε × Job σ ε Unit :=
  (empty, runBatch q.size 1 q.toList)

@[simp] theorem toList_empty : (empty : Queue σ ε).toList = [] := rfl

@[simp] theorem toList_push (q : Queue σ ε) (j : Job σ ε Unit) :
    (q.push j).toList = q.toList ++ [j] := by simp [push, toList]

theorem length_toList (q : Queue σ ε) : q.toList.length = q.size := by simp [toList, size]

theorem isEmpty_iff {q : Queue σ ε} : q.isEmpty = true ↔ q.toList = [] := by
  simp [isEmpty, toList]

/-- A job that fails writes one line more, and nothing else is changed by being in a batch. -/
theorem run_runOne [ToString ε] (total i : Nat) (j : Job σ ε Unit) (s : σ) :
    (runOne total i j).run s =
      match (j.run s).result with
      | .ok _ => j.run s
      | .error e =>
        { j.run s with log := (j.run s).log ++ [⟨.debug, failureText i total e⟩] } := by
  rw [runOne, Job.run_bind, Job.run_attempt]
  rcases h : j.run s with ⟨e | u, s', l⟩
  · simp [Outcome.after]
  · simp [Outcome.after]

@[simp] theorem runBatch_nil [ToString ε] (total i : Nat) :
    runBatch total i ([] : List (Job σ ε Unit)) = pure () := rfl

theorem runBatch_cons [ToString ε] (total i : Nat) (j : Job σ ε Unit) (rest : List (Job σ ε Unit)) :
    runBatch total i (j :: rest) = (runOne total i j >>= fun _ => runBatch total (i + 1) rest) :=
  rfl

end Queue

end ShaderLink
