import Mathlib.Data.List.DropRight
import ShaderLink.Queue.Session
import ShaderLink.Proofs.Lists
import ShaderLink.Proofs.Queue
import ShaderLink.Proofs.Queue.Notes

/-!
# What becomes of the jobs that are pushed

Over a session jobs are pushed and the queue is drained, in any order and any number of times, and
each job may wait, change the state, and succeed or fail. A job goes by the number of the request
that pushes it, counted from 0.

**The law** (`session_laws`): the jobs that are run are run in the order in which they were pushed,
each from its start to its end before the next one starts, and the state is the one that they leave
one behind the other. A job is run exactly when the queue is drained behind it and none fails of
those pushed in front of it since the last drain. A drain empties the queue before anything else,
waits where the jobs wait that it runs, and ends as the first failure of its batch says.

The order is read off the notes of the jobs (`ShaderLink.Proofs.Queue.Notes`): the same session with
every job noted comes to the same state, and in its notes no job stands within another. The proof
keeps an `Account` of the session, one request at a time: what is pushed waits (`Account.push`), and
a drain runs what it can of what waits (`Account.drain`).

**What it does not establish.** A job that waits is gone on with in the state in which it waits: who
drains holds the state until the batch is done.
-/

set_option autoImplicit false

namespace ShaderLink.Queue

variable {σ ε : Type}

/-! ## The jobs of a batch that are run -/

/-- The jobs of a batch with notes taken, the first of them as number `k`. -/
def notedFrom : Nat → List (Job σ ε Unit) → List (Job (Noted σ ε) ε Unit)
  | _, [] => []
  | k, j :: rest => noted k j :: notedFrom (k + 1) rest

/-- The jobs of a batch that are run, the first of them as number `k`: those in front of the first
that fails, and this one. -/
def ranFrom : Nat → List (Job σ ε Unit) → σ → List (Ran σ ε)
  | _, [], _ => []
  | k, j :: rest, s =>
    ⟨k, j, s⟩ ::
      match (j.run s).result with
      | .error _ => []
      | .ok () => ranFrom (k + 1) rest (j.run s).state

/-- Jobs are run one behind the other: each starts in the state that those in front of it leave. -/
def InTurn (ran : List (Ran σ ε)) (s : σ) : Prop :=
  ∀ front r back, ran = front ++ r :: back → r.before = leave (front.map Ran.job) s

theorem length_notedFrom (k : Nat) (jobs : List (Job σ ε Unit)) :
    (notedFrom k jobs).length = jobs.length := by
  induction jobs generalizing k with
  | nil => rfl
  | cons j rest ih => rw [notedFrom, List.length_cons, List.length_cons, ih]

theorem notedFrom_append (k : Nat) (front back : List (Job σ ε Unit)) :
    notedFrom k (front ++ back) = notedFrom k front ++ notedFrom (k + front.length) back := by
  induction front generalizing k with
  | nil => rfl
  | cons j front ih =>
    rw [List.cons_append, notedFrom, notedFrom, ih, List.length_cons, List.cons_append,
      Nat.add_right_comm, Nat.add_assoc k]

theorem ranFrom_of_error {j : Job σ ε Unit} {s : σ} {e : ε} (h : (j.run s).result = .error e)
    (k : Nat) (rest : List (Job σ ε Unit)) : ranFrom k (j :: rest) s = [⟨k, j, s⟩] := by
  rw [ranFrom, h]

theorem ranFrom_of_ok {j : Job σ ε Unit} {s : σ} (h : (j.run s).result = .ok ()) (k : Nat)
    (rest : List (Job σ ε Unit)) :
    ranFrom k (j :: rest) s = ⟨k, j, s⟩ :: ranFrom (k + 1) rest (j.run s).state := by
  rw [ranFrom, h]

/-- **A batch of noted jobs** does what the batch does, and its notes are those of the jobs that are
run, one job behind the other. -/
theorem run_runBatch_noted [ToString ε] (total i k : Nat) (jobs : List (Job σ ε Unit))
    (n : Noted σ ε) :
    (runBatch total i (notedFrom k jobs)).run n =
      let o := (runBatch total i jobs).run n.state
      ⟨o.result, ⟨o.state, n.notes ++ (ranFrom k jobs n.state).flatMap Ran.notes⟩, o.log⟩ := by
  induction jobs generalizing i k n with
  | nil => simp only [notedFrom, ranFrom, runBatch_nil, Job.run_pure, List.flatMap_nil,
      List.append_nil]
  | cons j rest ih =>
    simp only [notedFrom, runBatch_cons, Job.run_bind, run_runOne, run_noted, Ran.outcome]
    rcases hj : j.run n.state with ⟨e | u, s', l⟩
    · have fails : (j.run n.state).result = .error e := by rw [hj]
      simp only [ranFrom_of_error fails, Outcome.andThen_error, List.flatMap_singleton]
    · have ok : (j.run n.state).result = .ok () := by rw [hj]
      simp only [ranFrom_of_ok ok, hj, Outcome.andThen_ok, ih, Outcome.after, List.flatMap_cons,
        List.append_assoc]

/-- A job waits in a batch where it waits by itself. -/
theorem waits_runOne [ToString ε] (total i : Nat) (j : Job σ ε Unit) (s : σ) :
    ((runOne total i j).start s).waits = (j.start s).waits := by
  change ((j.start s).attempt.andThen _).waits = _
  rw [Progress.waits_andThen, Progress.waits_attempt, Progress.settle_attempt]
  cases (j.start s).settle.result <;> exact List.append_nil _

/-- **A batch waits where its jobs do**, those of it that are run, one job behind the other. -/
theorem waits_runBatch [ToString ε] (total i k : Nat) (jobs : List (Job σ ε Unit)) (s : σ) :
    ((runBatch total i jobs).start s).waits = (ranFrom k jobs s).flatMap Ran.waits := by
  induction jobs generalizing i k s with
  | nil => rfl
  | cons j rest ih =>
    change (((runOne total i j).start s).andThen _).waits = _
    have one : ((runOne total i j).start s).settle = (runOne total i j).run s := rfl
    rw [Progress.waits_andThen, waits_runOne, one, run_runOne]
    cases h : (j.run s).result with
    | error e =>
      simp only [ranFrom_of_error h, h, List.flatMap_singleton, List.append_nil, Ran.waits]
    | ok u =>
      simp only [ranFrom_of_ok h, h, List.flatMap_cons, Ran.waits, ih (i + 1) (k + 1)]

/-- What a batch leaves is left by the jobs of it that are run. -/
theorem state_runBatch [ToString ε] (total i k : Nat) (jobs : List (Job σ ε Unit)) (s : σ) :
    ((runBatch total i jobs).run s).state = leave ((ranFrom k jobs s).map Ran.job) s := by
  induction jobs generalizing i k s with
  | nil => rfl
  | cons j rest ih =>
    rw [runBatch_cons, Job.run_bind, run_runOne]
    rcases hj : j.run s with ⟨e | u, s', l⟩
    · have fails : (j.run s).result = .error e := by rw [hj]
      simp only [ranFrom_of_error fails, Outcome.andThen_error, List.map_cons, List.map_nil,
        leave_cons, hj, leave_nil]
    · have ok : (j.run s).result = .ok () := by rw [hj]
      simp only [ranFrom_of_ok ok, hj, Outcome.andThen_ok, Outcome.after, List.map_cons, leave_cons,
        ih (i + 1) (k + 1)]

theorem mem_ranFrom {k : Nat} {jobs : List (Job σ ε Unit)} {s : σ} {r : Ran σ ε}
    (h : r ∈ ranFrom k jobs s) : k ≤ r.number ∧ jobs[r.number - k]? = some r.job := by
  induction jobs generalizing k s with
  | nil => cases h
  | cons j rest ih =>
    rw [ranFrom, List.mem_cons] at h
    rcases h with rfl | h
    · simp
    · split at h
      · cases h
      · obtain ⟨le, at_⟩ := ih h
        refine ⟨by omega, ?_⟩
        rw [show r.number - k = r.number - (k + 1) + 1 by omega, List.getElem?_cons_succ]
        exact at_

theorem pairwise_ranFrom (k : Nat) (jobs : List (Job σ ε Unit)) (s : σ) :
    (ranFrom k jobs s).Pairwise fun r r' => r.number < r'.number := by
  induction jobs generalizing k s with
  | nil => exact .nil
  | cons j rest ih =>
    rw [ranFrom]
    refine .cons (fun r h => ?_) ?_
    · split at h
      · cases h
      · exact (mem_ranFrom h).1
    · split
      · exact .nil
      · exact ih _ _

/-- **A job of a batch is run** exactly when none of those in front of it fails. -/
theorem exists_mem_ranFrom_iff (k : Nat) {i : Nat} {jobs : List (Job σ ε Unit)} (s : σ)
    (h : i < jobs.length) :
    (∃ r ∈ ranFrom k jobs s, r.number = k + i) ↔
      ∀ r ∈ ranFrom k jobs s, r.number < k + i → r.outcome.result = .ok () := by
  induction jobs generalizing k i s with
  | nil => cases h
  | cons j rest ih =>
    cases i with
    | zero =>
      refine ⟨fun _ r mem lt => ?_, fun _ => ⟨⟨k, j, s⟩, ?_, rfl⟩⟩
      · have := (mem_ranFrom mem).1
        omega
      · rw [ranFrom]
        exact List.mem_cons_self
    | succ i =>
      have hi : i < rest.length := by simpa using h
      cases hj : (j.run s).result with
      | error e =>
        simp only [ranFrom_of_error hj, List.mem_singleton, exists_eq_left, forall_eq, Ran.outcome,
          hj]
        simp
      | ok u =>
        have next := ih (k + 1) (j.run s).state hi
        rw [show k + 1 + i = k + (i + 1) by omega] at next
        simp only [ranFrom_of_ok hj, List.exists_mem_cons_iff, List.forall_mem_cons, next,
          Ran.outcome, hj]
        simp

theorem InTurn.append {ran more : List (Ran σ ε)} {s : σ} (h : InTurn ran s)
    (h' : InTurn more (leave (ran.map Ran.job) s)) : InTurn (ran ++ more) s := by
  intro front r back split
  rcases List.append_eq_append_iff.1 split with ⟨mid, rfl, there⟩ | ⟨mid, rfl, there⟩
  · rw [List.map_append, leave_append]
    exact h' mid r back there
  · cases mid with
    | nil =>
      rw [List.append_nil] at h'
      exact h' [] r back there.symm
    | cons r' mid =>
      rw [List.cons_append, List.cons.injEq] at there
      obtain ⟨rfl, -⟩ := there
      exact h front r mid rfl

theorem inTurn_ranFrom (k : Nat) (jobs : List (Job σ ε Unit)) (s : σ) :
    InTurn (ranFrom k jobs s) s := by
  induction jobs generalizing k s with
  | nil =>
    intro front r back split
    exact absurd split (by simp [ranFrom])
  | cons j rest ih =>
    have one : InTurn [(⟨k, j, s⟩ : Ran σ ε)] s := by
      intro front r back split
      obtain ⟨rfl, cons⟩ | ⟨_, nil⟩ := List.singleton_eq_append_iff.1 split
      · cases cons
        rfl
      · cases nil
    cases hj : (j.run s).result with
    | error e =>
      rw [ranFrom_of_error hj]
      exact one
    | ok u =>
      rw [ranFrom_of_ok hj]
      exact one.append (ih _ _)

/-! ## What waits -/

/-- The job that a request pushes. -/
def Request.pushed? : Request σ ε → Option (Job σ ε Unit)
  | .push j => some j
  | .drain => none

/-- The jobs pushed since the last drain. -/
def pending (requests : List (Request σ ε)) : List (Job σ ε Unit) :=
  (requests.rtakeWhile fun r => r.pushed?.isSome).filterMap Request.pushed?

/-- The same request with notes taken of what it pushes. -/
def Request.noted (number : Nat) : Request σ ε → Request (Noted σ ε) ε
  | .push j => .push (Queue.noted number j)
  | .drain => .drain

/-- The same requests with notes taken of every job. -/
def noteAll (requests : List (Request σ ε)) : List (Request (Noted σ ε) ε) :=
  requests.zipIdx.map fun r => r.1.noted r.2

@[simp] theorem pending_nil : pending ([] : List (Request σ ε)) = [] := rfl

@[simp] theorem pending_push (requests : List (Request σ ε)) (j : Job σ ε Unit) :
    pending (requests ++ [.push j]) = pending requests ++ [j] := by
  rw [pending, List.rtakeWhile_concat_pos _ _ _ rfl, List.filterMap_append]
  rfl

@[simp] theorem pending_drain (requests : List (Request σ ε)) :
    pending (requests ++ [.drain]) = [] := by
  rw [pending, List.rtakeWhile_concat_neg _ _ _ (by simp [Request.pushed?]), List.filterMap_nil]

theorem noteAll_append_singleton (requests : List (Request σ ε)) (r : Request σ ε) :
    noteAll (requests ++ [r]) = noteAll requests ++ [r.noted requests.length] := by
  rw [noteAll, List.zipIdx_append, List.map_append]
  simp [noteAll]

/-- **What is pushed since the last drain** is the end of the requests, and a drain or nothing
stands in front of it. -/
theorem exists_eq_append_pending (requests : List (Request σ ε)) :
    ∃ front, requests = front ++ (pending requests).map .push ∧
      (front = [] ∨ ∃ older, front = older ++ [.drain]) := by
  induction requests using List.reverseRecOn with
  | nil => exact ⟨[], rfl, .inl rfl⟩
  | append_singleton requests r ih =>
    cases r with
    | push j =>
      obtain ⟨front, split, drained⟩ := ih
      refine ⟨front, ?_, drained⟩
      rw [pending_push, List.map_append, ← List.append_assoc, ← split]
      rfl
    | drain => exact ⟨requests ++ [.drain], by simp, .inr ⟨requests, rfl⟩⟩

theorem length_pending_le (requests : List (Request σ ε)) :
    (pending requests).length ≤ requests.length := by
  obtain ⟨front, split, -⟩ := exists_eq_append_pending requests
  have := congrArg List.length split
  rw [List.length_append, List.length_map] at this
  omega

theorem getElem?_of_pending (requests : List (Request σ ε)) (i : Nat) :
    requests[requests.length - (pending requests).length + i]? = (pending requests)[i]?.map .push := by
  obtain ⟨front, split, -⟩ := exists_eq_append_pending requests
  have length := congrArg List.length split
  rw [List.length_append, List.length_map] at length
  rw [length, Nat.add_sub_cancel]
  nth_rewrite 1 [split]
  rw [List.getElem?_append_right (Nat.le_add_right _ _), Nat.add_sub_cancel_left, List.getElem?_map]

/-- No drain stands behind a number exactly when what is pending starts there or in front of it. -/
theorem drain_notMem_drop_iff (requests : List (Request σ ε)) (n : Nat) :
    .drain ∉ requests.drop n ↔ requests.length ≤ n + (pending requests).length := by
  obtain ⟨front, split, drained⟩ := exists_eq_append_pending requests
  have length := congrArg List.length split
  rw [List.length_append, List.length_map] at length
  rw [length, Nat.add_le_add_iff_right, split, List.drop_append, List.mem_append, not_or]
  constructor
  · rintro ⟨notMem, -⟩
    rcases drained with rfl | ⟨older, rfl⟩
    · exact Nat.zero_le n
    · by_contra lt
      rw [List.length_append, List.length_singleton] at lt
      rw [List.drop_append_of_le_length (by omega)] at notMem
      exact notMem (List.mem_append_right _ (List.mem_singleton_self _))
  · intro le
    rw [List.drop_eq_nil_of_le le]
    refine ⟨List.not_mem_nil, fun mem => ?_⟩
    obtain ⟨j, -, push⟩ := List.mem_map.1 (List.mem_of_mem_drop mem)
    cases push

/-- The jobs that a drain behind the requests runs from a state. -/
def ranBehind (requests : List (Request σ ε)) (s : σ) : List (Ran σ ε) :=
  ranFrom (requests.length - (pending requests).length) (pending requests) s

/-- A drain runs what is pending. -/
theorem mem_ranBehind {requests : List (Request σ ε)} {s : σ} {r : Ran σ ε}
    (h : r ∈ ranBehind requests s) :
    requests.length ≤ r.number + (pending requests).length ∧
      requests[r.number]? = some (.push r.job) := by
  obtain ⟨ge, at_⟩ := mem_ranFrom h
  refine ⟨by omega, ?_⟩
  rw [← Nat.add_sub_cancel' ge, getElem?_of_pending, at_, Option.map_some]

/-! ## The account of a session -/

variable [ToString ε]

/-- **What holds of a session** behind requests, when the jobs `ran` were run in it. -/
structure SessionLaws (requests : List (Request σ ε)) (s : σ) (ran : List (Ran σ ε)) : Prop where
  /-- What was pushed since the last drain waits, in this order. -/
  waiting : ((Session.of s).after requests).queue.toList = pending requests
  size : ((Session.of s).after requests).queue.size = (pending requests).length
  /-- The state is what the jobs that were run leave one behind the other, and no other job. -/
  state : ((Session.of s).after requests).state = leave (ran.map Ran.job) s
  inTurn : InTurn ran s
  /-- With notes taken the state is the same, and the notes of each job, with all its waits, stand
  between those of the jobs in front of it and those of the jobs behind it. -/
  notes : ((Session.of ⟨s, []⟩).after (noteAll requests)).state =
    ⟨((Session.of s).after requests).state, ran.flatMap Ran.notes⟩
  /-- What was run was pushed. -/
  pushed : ∀ r ∈ ran, requests[r.number]? = some (.push r.job)
  /-- It was run in the order in which it was pushed, and no more than once. -/
  order : ran.Pairwise fun r r' => r.number < r'.number
  /-- A job was run exactly when there is a drain behind it and none of those in front of it failed
  that were pushed since the last drain. -/
  runs : ∀ front j back, requests = front ++ .push j :: back →
    ((∃ r ∈ ran, r.number = front.length) ↔
      .drain ∈ back ∧ ∀ r ∈ ran, r.number < front.length → .drain ∉ front.drop r.number →
        r.outcome.result = .ok ())

/-- **What a drain does** in a session in which `batch` waits. -/
structure Drains (x : Session σ ε) (batch : List (Job σ ε Unit)) : Prop where
  /-- It waits where its jobs wait, those of one complete before those of the next, and each time the
  queue is empty already. -/
  waits : (Session.drain.start x).waits =
    (ranFrom 1 batch x.state).flatMap fun r => r.waits.map fun s => ⟨.empty, s⟩
  empty : (Session.drain.run x).state.queue = .empty
  /-- It ends with all jobs of the batch run, or with the first that fails. -/
  ends : Ends batch x.state
    ⟨(Session.drain.run x).result, (Session.drain.run x).state.state, (Session.drain.run x).log⟩

/-- What is kept of a session beside its laws: the same queue with notes taken, and that whatever
was run was pushed in front of what waits. -/
structure Account (requests : List (Request σ ε)) (s : σ) (ran : List (Ran σ ε)) : Prop
    extends SessionLaws requests s ran where
  noted : ((Session.of ⟨s, []⟩).after (noteAll requests)).queue.toList =
    notedFrom (requests.length - (pending requests).length) (pending requests)
  behind : ∀ r ∈ ran, r.number + (pending requests).length < requests.length

theorem after_append_singleton (x : Session σ ε) (requests : List (Request σ ε)) (r : Request σ ε) :
    x.after (requests ++ [r]) = ((Session.ask r).run (x.after requests)).state :=
  List.foldl_append

theorem start_drain (x : Session σ ε) :
    Session.drain.start x =
      ((runBatch x.queue.size 1 x.queue.toList).within Session.statePart id).start
        ⟨.empty, x.state⟩ := by
  change (Progress.after [] (Progress.after [] _)) = _
  rw [Progress.after_nil, Progress.after_nil]
  rfl

theorem run_drain (x : Session σ ε) :
    Session.drain.run x =
      let o := (runBatch x.queue.toList.length 1 x.queue.toList).run x.state
      ⟨o.result, ⟨.empty, o.state⟩, o.log⟩ := by
  rw [Job.run, start_drain, length_toList]
  change (Job.within Session.statePart id _).run ⟨.empty, x.state⟩ = _
  rw [Job.run_within]
  change (let o := (runBatch x.queue.size 1 x.queue.toList).run x.state
    (⟨o.result.mapError id, ⟨.empty, o.state⟩, o.log⟩ : Outcome (Session σ ε) ε Unit)) = _
  rcases (runBatch x.queue.size 1 x.queue.toList).run x.state with ⟨_ | _, _, _⟩ <;> rfl

theorem drains {x : Session σ ε} {batch : List (Job σ ε Unit)} (h : x.queue.toList = batch) :
    Drains x batch where
  waits := by
    rw [start_drain, h]
    change (Progress.within Session.statePart id _ ((runBatch _ 1 batch).start x.state)).waits = _
    rw [Progress.waits_within, waits_runBatch _ 1 1, List.map_flatMap]
    rfl
  empty := by rw [run_drain]
  ends := by
    rw [run_drain, h]
    exact ends_runBatch batch x.state

theorem Account.nil (s : σ) : Account ([] : List (Request σ ε)) s [] where
  waiting := rfl
  size := rfl
  state := rfl
  inTurn front r back split := absurd split (by simp)
  notes := rfl
  pushed r mem := absurd mem List.not_mem_nil
  order := .nil
  runs front j back split := absurd split (by simp)
  noted := rfl
  behind r mem := absurd mem List.not_mem_nil

/-- **What is pushed waits**, and nothing is run. -/
theorem Account.push {requests : List (Request σ ε)} {s : σ} {ran : List (Ran σ ε)}
    (h : Account requests s ran) (j : Job σ ε Unit) : Account (requests ++ [.push j]) s ran := by
  have waiting : ((Session.of s).after (requests ++ [.push j])).queue.toList =
      pending (requests ++ [.push j]) := by
    rw [after_append_singleton, pending_push, ← h.waiting]
    exact toList_push ..
  have state : ((Session.of s).after (requests ++ [.push j])).state =
      ((Session.of s).after requests).state := by
    rw [after_append_singleton]
    rfl
  refine { waiting, size := by rw [← length_toList, waiting], state := state.trans h.state,
           inTurn := h.inTurn, notes := ?notes, pushed := fun r mem => ?pushed, order := h.order,
           runs := fun front j' back split => ?runs, noted := ?noted, behind := fun r mem => ?behind }
  case notes =>
    rw [noteAll_append_singleton, after_append_singleton, state, ← h.notes]
    rfl
  case pushed =>
    have there := h.pushed r mem
    rw [List.getElem?_append_left (List.getElem?_eq_some_iff.1 there).1]
    exact there
  case runs =>
    rcases split_concat split with ⟨rfl, -, rfl⟩ | ⟨older, rfl, rfl⟩
    · refine ⟨fun ⟨r, mem, number⟩ => ?_, fun ⟨mem, _⟩ => absurd mem List.not_mem_nil⟩
      have := h.behind r mem
      omega
    · rw [h.runs front j' older rfl, List.mem_append, List.mem_singleton]
      simp
  case noted =>
    have le := length_pending_le requests
    simp only [noteAll_append_singleton, after_append_singleton, pending_push, List.length_append,
      List.length_singleton, Nat.add_sub_add_right, notedFrom_append, ← h.noted,
      Nat.sub_add_cancel le]
    exact toList_push ..
  case behind =>
    have := h.behind r mem
    simp only [pending_push, List.length_append, List.length_singleton]
    omega

/-- What a drain runs keeps the rule by which jobs are run. -/
theorem Account.runs_drain {requests : List (Request σ ε)} {s s' : σ} {ran : List (Ran σ ε)}
    (h : Account requests s ran) {front back : List (Request σ ε)} {j : Job σ ε Unit}
    (split : requests = front ++ .push j :: back) :
    (∃ r ∈ ran ++ ranBehind requests s', r.number = front.length) ↔
      ∀ r ∈ ran ++ ranBehind requests s', r.number < front.length →
        .drain ∉ front.drop r.number → r.outcome.result = .ok () := by
  have length := congrArg List.length split
  rw [List.length_append, List.length_cons] at length
  have drop (n : Nat) (le : n ≤ front.length) :
      .drain ∉ requests.drop n ↔ .drain ∉ front.drop n ∧ .drain ∉ back := by
    rw [split, List.drop_append_of_le_length le, List.mem_append, List.mem_cons]
    simp
  by_cases drained : .drain ∈ back
  · -- The job was drained before, and all that is run now was pushed behind it.
    have old := h.runs front j back split
    have far : ∀ r ∈ ranBehind requests s', front.length < r.number := by
      intro r mem
      have := (mem_ranBehind mem).1
      have : ¬ requests.length ≤ front.length + (pending requests).length := by
        rw [← drain_notMem_drop_iff, drop _ le_rfl]
        exact fun none => none.2 drained
      omega
    constructor
    · rintro ⟨r, mem, number⟩ r' mem' lt same
      rcases List.mem_append.1 mem with mem | mem
      · rcases List.mem_append.1 mem' with mem' | mem'
        · exact (old.1 ⟨r, mem, number⟩).2 r' mem' lt same
        · have := far r' mem'
          omega
      · have := far r mem
        omega
    · intro ok
      obtain ⟨r, mem, number⟩ :=
        old.2 ⟨drained, fun r mem => ok r (List.mem_append_left _ mem)⟩
      exact ⟨r, List.mem_append_left _ mem, number⟩
  · -- The job is drained now, and all that was run before was pushed in front of its batch.
    have le : requests.length ≤ front.length + (pending requests).length :=
      (drain_notMem_drop_iff ..).1 ((drop _ le_rfl).2 ⟨by simp, drained⟩)
    have place : front.length - (requests.length - (pending requests).length) <
        (pending requests).length := by omega
    have here := exists_mem_ranFrom_iff (requests.length - (pending requests).length) s' place
    rw [Nat.add_sub_cancel' (by omega)] at here
    constructor
    · rintro ⟨r, mem, number⟩ r' mem' lt same
      have := (drain_notMem_drop_iff ..).1 ((drop _ lt.le).2 ⟨same, drained⟩)
      rcases List.mem_append.1 mem with mem | mem
      · have := h.behind r mem
        omega
      · rcases List.mem_append.1 mem' with mem' | mem'
        · have := h.behind r' mem'
          omega
        · exact here.1 ⟨r, mem, number⟩ r' mem' lt
    · intro ok
      obtain ⟨r, mem, number⟩ := here.2 fun r mem lt => ok r (List.mem_append_right _ mem) lt
        ((drop _ lt.le).1 ((drain_notMem_drop_iff ..).2 (mem_ranBehind mem).1)).1
      exact ⟨r, List.mem_append_right _ mem, number⟩

/-- **A drain runs what waits** up to the first failure. -/
theorem Account.drain {requests : List (Request σ ε)} {s : σ} {ran : List (Ran σ ε)}
    (h : Account requests s ran) :
    Account (requests ++ [.drain]) s
      (ran ++ ranBehind requests ((Session.of s).after requests).state) := by
  have there : (Session.of s).after (requests ++ [.drain]) =
      (Session.drain.run ((Session.of s).after requests)).state := after_append_singleton ..
  have waiting : ((Session.of s).after (requests ++ [.drain])).queue.toList =
      pending (requests ++ [.drain]) := by
    rw [there, run_drain, pending_drain]
    rfl
  refine { waiting, size := by rw [← length_toList, waiting], state := ?state, inTurn := ?inTurn,
           notes := ?notes, pushed := fun r mem => ?pushed, order := ?order,
           runs := fun front j back split => ?runs, noted := ?noted, behind := fun r mem => ?behind }
  case state =>
    rw [there, run_drain, h.waiting, List.map_append, leave_append, ← h.state]
    exact state_runBatch ..
  case inTurn =>
    rw [h.state]
    exact h.inTurn.append (inTurn_ranFrom _ _ _)
  case notes =>
    rw [noteAll_append_singleton, after_append_singleton, there, run_drain]
    change (Session.drain.run _).state.state = _
    rw [run_drain, h.noted, length_notedFrom, h.waiting, h.notes, run_runBatch_noted,
      List.flatMap_append]
    rfl
  case pushed =>
    have old : requests[r.number]? = some (.push r.job) :=
      (List.mem_append.1 mem).elim (h.pushed r) fun mem => (mem_ranBehind mem).2
    rw [List.getElem?_append_left (List.getElem?_eq_some_iff.1 old).1]
    exact old
  case order =>
    refine List.pairwise_append.2 ⟨h.order, pairwise_ranFrom .., fun r mem r' mem' => ?_⟩
    have := h.behind r mem
    have := (mem_ranBehind mem').1
    omega
  case runs =>
    obtain ⟨-, push, -⟩ | ⟨older, rfl, before⟩ := split_concat split
    · cases push
    · rw [h.runs_drain before]
      simp
  case noted =>
    rw [noteAll_append_singleton, after_append_singleton, pending_drain]
    change (Session.drain.run _).state.queue.toList = _
    rw [run_drain]
    rfl
  case behind =>
    rw [pending_drain, List.length_nil, List.length_append, List.length_singleton]
    rcases List.mem_append.1 mem with mem | mem
    · have := h.behind r mem
      omega
    · have := (List.getElem?_eq_some_iff.1 (mem_ranBehind mem).2).1
      omega

/-- **An account can be kept** of every session. -/
theorem exists_account (requests : List (Request σ ε)) (s : σ) :
    ∃ ran, Account requests s ran := by
  induction requests using List.reverseRecOn with
  | nil => exact ⟨[], .nil s⟩
  | append_singleton requests r ih =>
    obtain ⟨ran, h⟩ := ih
    cases r with
    | push j => exact ⟨ran, h.push j⟩
    | drain => exact ⟨_, h.drain⟩

/-- **What a queue does over a session**: whatever is pushed and drained, in whatever order, jobs
are run in the order in which they were pushed, one complete before the next, up to the first
failure of each batch. A drain behind the requests would run those that wait. -/
theorem session_laws (requests : List (Request σ ε)) (s : σ) :
    Drains ((Session.of s).after requests) (pending requests) ∧
      ∃ ran, SessionLaws requests s ran := by
  obtain ⟨ran, h⟩ := exists_account requests s
  exact ⟨drains h.waiting, ran, h.toSessionLaws⟩

/-- The second job fails behind its wait: what it did stays, and the third is lost. -/
example : ((Session.of [] : Session (List Nat) String).after
    [.push (Job.modify (· ++ [1])),
      .push (do Job.modify (· ++ [2]); Job.wait; Job.fail "lost"),
      .push (Job.modify (· ++ [3])), .drain, .drain]).state = [1, 2] := rfl

end ShaderLink.Queue
