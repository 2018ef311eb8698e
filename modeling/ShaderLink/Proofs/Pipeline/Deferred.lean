import ShaderLink.Pipeline.Session
import ShaderLink.Proofs.Pipeline.Steps
import ShaderLink.Proofs.Queue

/-!
# Deferred operations

An operation that is recorded is a job in a queue, and a submitted queue is drained as a batch. The
ledger is what a session comes to without jobs, queues and batches: the pipeline, and the operations
noted for it. To submit is to call those that are noted, one behind the other, on the pipeline
itself.

**The law** (`session_eq_direct`): whatever is asked of a front, in whatever order, nothing can be
seen that is not seen of the ledger, neither in an answer nor in the log nor in the pipeline, its
backend included. Calling operations comes to carrying out those up to the first failure and none
behind it (`Stops`), and what was recorded before a release might as well not have been.

The proof relates a front to the ledger by `Shows`: the jobs in the queue are those of the
operations noted. One action keeps the relation and answers alike (`shows_act`), and so does every
script.

**What it does not establish.** Each operation is carried out to its end before anything else
happens. A session whose owner does something else to the pipeline while a job waits is not
considered.
-/

set_option autoImplicit false

namespace ShaderLink.Pipeline

variable {β ι π : Type} [Backend β ι π]

/-! ## Operations called directly -/

/-- Calls operations one behind the other, up to the first that fails. -/
def callAll (ops : List Op) : Step β ι π Unit :=
  Queue.inOrder (ops.map Op.step)

/-- The number of the first operation that fails, counted from 1, and its error. -/
def firstFailure? (ops : List Op) (p : Pipeline β ι π) : Option (Nat × PipelineError) :=
  Queue.firstFailure 1 (ops.map Op.step) p

/-- The lines logged by operations when each is carried out. -/
def logAfter (p : Pipeline β ι π) : List Op → List Log.Entry
  | [] => []
  | op :: ops => (op.step.run p).log ++ (op.step.run p).state.logAfter ops

/-- **What the first failure means**: without one all operations are carried out. With one, those in
front of it are carried out and succeed, the one that fails is the last that is carried out, and
those behind make no difference. -/
def Stops (ops : List Op) (p : Pipeline β ι π) : Option (Nat × PipelineError) → Prop
  | none => (callAll ops).run p = ⟨.ok (), p.after ops, p.logAfter ops⟩
  | some (k, e) => ∃ front op back, ops = front ++ op :: back ∧ k = front.length + 1 ∧
      ((callAll front).run p).result = .ok () ∧ (op.step.run (p.after front)).result = .error e ∧
      ∀ other, (callAll (front ++ op :: other)).run p =
        ⟨.error e, p.after (front ++ [op]), p.logAfter (front ++ [op])⟩

theorem after_eq_leave (p : Pipeline β ι π) (ops : List Op) :
    p.after ops = Queue.leave (ops.map Op.step) p := by
  rw [Queue.leave, List.foldl_map]
  rfl

theorem logAfter_eq_logged (p : Pipeline β ι π) (ops : List Op) :
    p.logAfter ops = Queue.logged (ops.map Op.step) p := by
  induction ops generalizing p with
  | nil => rfl
  | cons op ops ih => rw [logAfter, ih, List.map_cons, Queue.logged]

theorem logAfter_append (p : Pipeline β ι π) (ops more : List Op) :
    p.logAfter (ops ++ more) = p.logAfter ops ++ (p.after ops).logAfter more := by
  simp only [logAfter_eq_logged, after_eq_leave, List.map_append, Queue.logged_append]

theorem run_callAll_of_ok {ops : List Op} {p : Pipeline β ι π}
    (ok : ((callAll ops).run p).result = .ok ()) :
    (callAll ops).run p = ⟨.ok (), p.after ops, p.logAfter ops⟩ := by
  rw [after_eq_leave, logAfter_eq_logged]
  exact Queue.run_inOrder_of_result ok

theorem stops_firstFailure (ops : List Op) (p : Pipeline β ι π) :
    Stops ops p (firstFailure? ops p) := by
  cases h : firstFailure? ops p with
  | none =>
    have result := Queue.result_inOrder 1 (ops.map Op.step) p
    rw [firstFailure?] at h
    rw [h] at result
    exact run_callAll_of_ok result
  | some found =>
    obtain ⟨k, e⟩ := found
    rw [firstFailure?] at h
    obtain ⟨front', j, back', split, rfl, ok, fails⟩ := Queue.exists_of_firstFailure h
    obtain ⟨front, rest, rfl, rfl, cons⟩ := List.map_eq_append_iff.1 split
    obtain ⟨op, back, rfl, rfl, rfl⟩ := List.map_eq_cons_iff.1 cons
    -- The operations in front all succeed, so that the one that fails starts from what they leave.
    have there : (Queue.inOrder (front.map Op.step)).run p = _ := run_callAll_of_ok ok
    rw [there] at fails
    refine ⟨front, op, back, rfl, ?_, ok, fails, fun other => ?_⟩
    · rw [List.length_map]
      omega
    · rw [callAll, List.map_append, List.map_cons, Queue.run_inOrder_append ok, there,
        Queue.run_inOrder_of_error fails, after_append, logAfter_append, Outcome.after, fails,
        logAfter, logAfter, List.append_nil]
      rfl

/-! ## Sessions without jobs -/

/-- What a session comes to. -/
structure Ledger (β ι π : Type) where
  pipeline : Pipeline β ι π
  /-- The operations noted since the last submit, if operations are noted and not called at once. -/
  noted : Option (List Op)

/-- The log of a submit of `ops`, when calling them logs `log`. -/
def submitLog (ops : List Op) (p : Pipeline β ι π) (log : List Log.Entry) : List Log.Entry :=
  ⟨.debug, "submitting " ++ toString ops.length ++ " pipeline commands"⟩ :: log ++
    match firstFailure? ops p with
    | none => []
    | some (k, e) =>
      [⟨.debug, "command " ++ toString k ++ " of " ++ toString ops.length ++ " failed: " ++
        e.message⟩]

/-- Does what is asked with the operations noted. -/
def Ledger.act (l : Ledger β ι π) : Action → Outcome (Ledger β ι π) PipelineError Unit
  | .op op =>
    match l.noted with
    | none =>
      let o := op.step.run l.pipeline
      ⟨o.result, ⟨o.state, none⟩, o.log⟩
    | some ops => ⟨.ok (), ⟨l.pipeline, some (ops ++ [op])⟩, []⟩
  | .submit =>
    match l.noted with
    | none | some [] => ⟨.ok (), l, []⟩
    | some ops =>
      let o := (callAll ops).run l.pipeline
      ⟨o.result, ⟨o.state, some []⟩, submitLog ops l.pipeline o.log⟩
  | .release => ⟨.ok (), ⟨l.pipeline, none⟩, []⟩
  | .defer => ⟨.ok (), ⟨l.pipeline, some (l.noted.getD [])⟩, []⟩

/-- What can be seen when something was asked: the answer, the lines logged, and what is there
afterwards. -/
structure View (β ι π : Type) where
  result : Except PipelineError Unit
  log : List Log.Entry
  pipeline : Pipeline β ι π
  pending : Option Nat

/-- What can be seen of a front over a script. -/
def Front.views : Front β ι π → List Action → List (View β ι π)
  | _, [] => []
  | f, a :: script =>
    let o := f.act a
    ⟨o.result, o.log, o.state.pipeline, o.state.pending⟩ :: o.state.views script

/-- What can be seen of a ledger over a script. -/
def Ledger.views : Ledger β ι π → List Action → List (View β ι π)
  | _, [] => []
  | l, a :: script =>
    let o := l.act a
    ⟨o.result, o.log, o.state.pipeline, o.state.noted.map List.length⟩ :: o.state.views script

/-! ## A front shows the ledger -/

/-- The front holds the pipeline of the ledger, and for each operation noted its job. -/
inductive Shows : Front β ι π → Ledger β ι π → Prop
  | direct (p : Pipeline β ι π) : Shows (.direct p) ⟨p, none⟩
  | deferred {p : Pipeline β ι π} {q : Queue (Pipeline β ι π) PipelineError} {ops : List Op}
      (jobs : q.toList = ops.map Op.step) : Shows (.deferred ⟨p, q⟩) ⟨p, some ops⟩

theorem Shows.pipeline_eq {f : Front β ι π} {l : Ledger β ι π} (h : Shows f l) :
    f.pipeline = l.pipeline := by
  cases h <;> rfl

theorem Shows.pending_eq {f : Front β ι π} {l : Ledger β ι π} (h : Shows f l) :
    f.pending = l.noted.map List.length := by
  cases h with
  | direct p => rfl
  | deferred jobs =>
    rw [Front.pending, Recorder.pending, ← Queue.length_toList, jobs, List.length_map]
    rfl

private theorem run_submit_noted {p : Pipeline β ι π} {q : Queue (Pipeline β ι π) PipelineError}
    {ops : List Op} (jobs : q.toList = ops.map Op.step) (some : ops ≠ []) :
    Recorder.submit.run ⟨p, q⟩ =
      let o := (callAll ops).run p
      ⟨o.result, ⟨o.state, .empty⟩, submitLog ops p o.log⟩ := by
  have length : q.size = ops.length := by rw [← Queue.length_toList, jobs, List.length_map]
  have full : q.isEmpty = false := by
    rw [← Bool.not_eq_true, Queue.isEmpty_iff, jobs, List.map_eq_nil_iff]
    exact some
  rw [Recorder.run_submit full]
  simp only [Queue.drain, jobs, Queue.run_runBatch, length, Recorder.pending, callAll, submitLog,
    firstFailure?]
  cases Queue.firstFailure 1 (ops.map Op.step) p <;> rfl

/-- **One action**: a front answers and logs what the ledger says, and shows it afterwards. -/
theorem shows_act {f : Front β ι π} {l : Ledger β ι π} (h : Shows f l) (a : Action) :
    (f.act a).result = (l.act a).result ∧ (f.act a).log = (l.act a).log ∧
      Shows (f.act a).state (l.act a).state := by
  cases h with
  | direct p =>
    cases a with
    | op op => exact ⟨rfl, rfl, .direct _⟩
    | submit => exact ⟨rfl, rfl, .direct p⟩
    | release => exact ⟨rfl, rfl, .direct p⟩
    | defer => exact ⟨rfl, rfl, .deferred Queue.toList_empty⟩
  | @deferred p q ops jobs =>
    cases a with
    | op op =>
      refine ⟨rfl, rfl, .deferred ?_⟩
      rw [Queue.toList_push, jobs, List.map_append]
      rfl
    | submit =>
      cases ops with
      | nil =>
        have empty : q.isEmpty = true := Queue.isEmpty_iff.2 jobs
        simp only [Front.act, Recorder.run_submit_of_isEmpty (r := ⟨p, q⟩) empty]
        exact ⟨rfl, rfl, .deferred jobs⟩
      | cons op ops =>
        simp only [Front.act, run_submit_noted jobs (List.cons_ne_nil op ops)]
        exact ⟨rfl, rfl, .deferred Queue.toList_empty⟩
    | release => exact ⟨rfl, rfl, .direct p⟩
    | defer => exact ⟨rfl, rfl, .deferred jobs⟩

/-- **A whole script**: nothing else can be seen of a front than of the ledger that it shows. -/
theorem Shows.views_eq {f : Front β ι π} {l : Ledger β ι π} (h : Shows f l) (script : List Action) :
    f.views script = l.views script := by
  induction script generalizing f l with
  | nil => rfl
  | cons a script ih =>
    obtain ⟨result, log, shows⟩ := shows_act h a
    rw [Front.views, Ledger.views, result, log, shows.pipeline_eq, shows.pending_eq, ih shows]

theorem Ledger.views_noting (p : Pipeline β ι π) (noted ops : List Op) (rest : List Action) :
    ((⟨p, some noted⟩ : Ledger β ι π).views (ops.map .op ++ .release :: rest)).drop ops.length =
      (⟨p, none⟩ : Ledger β ι π).views (.release :: rest) := by
  induction ops generalizing noted with
  | nil => rfl
  | cons op ops ih => exact ih (noted ++ [op])

/-- **A session is one of direct calls.** Over every script, all that can be seen of a front is what
the ledger says, where a submit calls what is noted. A call that fails is the last that is made.
What is recorded before a release leaves no trace. -/
theorem session_eq_direct (p : Pipeline β ι π) (script : List Action) :
    (Front.direct p).views script = (⟨p, none⟩ : Ledger β ι π).views script ∧
      (∀ (ops : List Op) (q : Pipeline β ι π), Stops ops q (firstFailure? ops q)) ∧
      ∀ (ops : List Op) (rest : List Action),
        ((Front.direct p).views (.defer :: (ops.map .op ++ .release :: rest))).drop
          (ops.length + 1) = (Front.direct p).views (.release :: rest) := by
  refine ⟨(Shows.direct p).views_eq script, stops_firstFailure, fun ops rest => ?_⟩
  rw [(Shows.direct p).views_eq, (Shows.direct p).views_eq]
  exact Ledger.views_noting p [] ops rest

end ShaderLink.Pipeline
