import ShaderLink.Queue

/-!
# Batches

A batch runs its jobs each apart from the others and logs a failure before it gives it on. What it
does is nevertheless what its jobs do when they are written one behind the other, `inOrder`: that is
what a caller does who calls them and stops at the first failure.

**The law** (`run_runBatch`): result and state are those of the jobs in order. The log is theirs,
and one line more if a job fails. The number in that line is that of the first job that fails when
those in front of it succeed (`exists_of_firstFailure`).
-/

set_option autoImplicit false

namespace ShaderLink.Queue

variable {σ ε : Type}

/-- Jobs one behind the other. -/
def inOrder : List (Job σ ε Unit) → Job σ ε Unit
  | [] => pure ()
  | j :: rest => do
    j
    inOrder rest

/-- The first of jobs in order that fails, and its failure; the first job is number `i`. -/
def firstFailure : Nat → List (Job σ ε Unit) → σ → Option (Nat × ε)
  | _, [], _ => none
  | i, j :: rest, s =>
    match (j.run s).result with
    | .error e => some (i, e)
    | .ok () => firstFailure (i + 1) rest (j.run s).state

/-- What is logged of the first failure of `total` jobs. -/
def failureLog [ToString ε] (total : Nat) : Option (Nat × ε) → List Log.Entry
  | none => []
  | some (i, e) =>
    [⟨.debug, "command " ++ toString i ++ " of " ++ toString total ++ " failed: " ++ toString e⟩]

/-- The state that jobs leave one behind the other, each from the state of the one in front. -/
def leave (jobs : List (Job σ ε Unit)) (s : σ) : σ :=
  jobs.foldl (fun s j => (j.run s).state) s

/-- What jobs log one behind the other. -/
def logged : List (Job σ ε Unit) → σ → List Log.Entry
  | [], _ => []
  | j :: rest, s => (j.run s).log ++ logged rest (j.run s).state

/-! ## Jobs in order -/

@[simp] theorem leave_nil (s : σ) : leave ([] : List (Job σ ε Unit)) s = s := rfl

@[simp] theorem leave_cons (j : Job σ ε Unit) (rest : List (Job σ ε Unit)) (s : σ) :
    leave (j :: rest) s = leave rest (j.run s).state := rfl

theorem leave_append (front back : List (Job σ ε Unit)) (s : σ) :
    leave (front ++ back) s = leave back (leave front s) :=
  List.foldl_append

theorem logged_append (front back : List (Job σ ε Unit)) (s : σ) :
    logged (front ++ back) s = logged front s ++ logged back (leave front s) := by
  induction front generalizing s with
  | nil => rfl
  | cons j front ih => simp only [List.cons_append, logged, leave_cons, ih, List.append_assoc]

theorem run_inOrder_cons (j : Job σ ε Unit) (rest : List (Job σ ε Unit)) (s : σ) :
    (inOrder (j :: rest)).run s = (j.run s).andThen fun _ => (inOrder rest).run :=
  Job.run_bind ..

theorem run_inOrder_of_error {j : Job σ ε Unit} {s : σ} {e : ε}
    (h : (j.run s).result = .error e) (rest : List (Job σ ε Unit)) :
    (inOrder (j :: rest)).run s = j.run s := by
  rw [run_inOrder_cons]
  rcases hj : j.run s with ⟨e' | u, s', l⟩
  · rfl
  · rw [hj] at h
    cases h

theorem run_inOrder_of_ok {j : Job σ ε Unit} {s : σ} (h : (j.run s).result = .ok ())
    (rest : List (Job σ ε Unit)) :
    (inOrder (j :: rest)).run s = ((inOrder rest).run (j.run s).state).after (j.run s).log := by
  rw [run_inOrder_cons]
  rcases hj : j.run s with ⟨e | u, s', l⟩
  · rw [hj] at h
    cases h
  · rfl

/-- Jobs that all succeed leave and log what they leave and log by themselves. -/
theorem run_inOrder_of_result {jobs : List (Job σ ε Unit)} {s : σ}
    (ok : ((inOrder jobs).run s).result = .ok ()) :
    (inOrder jobs).run s = ⟨.ok (), leave jobs s, logged jobs s⟩ := by
  induction jobs generalizing s with
  | nil => rfl
  | cons j rest ih =>
    cases h : (j.run s).result with
    | error e =>
      rw [run_inOrder_of_error h, h] at ok
      cases ok
    | ok u =>
      rw [run_inOrder_of_ok h] at ok ⊢
      rw [ih ok]
      rfl

theorem inOrder_append (front back : List (Job σ ε Unit)) :
    inOrder (front ++ back) = (inOrder front >>= fun _ => inOrder back) := by
  induction front with
  | nil => rw [List.nil_append, inOrder, pure_bind]
  | cons j front ih => rw [List.cons_append, inOrder, inOrder, ih, bind_assoc]

/-- Behind jobs that all succeed, others go on from where these have come to. -/
theorem run_inOrder_append {front : List (Job σ ε Unit)} {s : σ}
    (h : ((inOrder front).run s).result = .ok ()) (back : List (Job σ ε Unit)) :
    (inOrder (front ++ back)).run s =
      ((inOrder back).run ((inOrder front).run s).state).after ((inOrder front).run s).log := by
  rw [inOrder_append, Job.run_bind]
  rcases hf : (inOrder front).run s with ⟨e | u, s', l⟩
  · rw [hf] at h
    cases h
  · rfl

/-- **There is a first failure** exactly when jobs in order do not succeed. -/
theorem result_inOrder (i : Nat) (jobs : List (Job σ ε Unit)) (s : σ) :
    ((inOrder jobs).run s).result =
      match firstFailure i jobs s with
      | none => .ok ()
      | some (_, e) => .error e := by
  induction jobs generalizing i s with
  | nil => rfl
  | cons j rest ih =>
    cases h : (j.run s).result with
    | error e => simp only [run_inOrder_of_error h, firstFailure, h]
    | ok u => simp only [run_inOrder_of_ok h, firstFailure, h, Outcome.after, ih (i + 1)]

/-- **The first failure** is that of a job whose predecessors succeed, in the state that they
leave. -/
theorem exists_of_firstFailure {i k : Nat} {jobs : List (Job σ ε Unit)} {s : σ} {e : ε}
    (h : firstFailure i jobs s = some (k, e)) :
    ∃ front j back, jobs = front ++ j :: back ∧ k = i + front.length ∧
      ((inOrder front).run s).result = .ok () ∧
      (j.run ((inOrder front).run s).state).result = .error e := by
  induction jobs generalizing i s with
  | nil => cases h
  | cons j rest ih =>
    cases hj : (j.run s).result with
    | error e' =>
      simp only [firstFailure, hj, Option.some.injEq, Prod.mk.injEq] at h
      obtain ⟨rfl, rfl⟩ := h
      exact ⟨[], j, rest, rfl, rfl, rfl, hj⟩
    | ok u =>
      simp only [firstFailure, hj] at h
      obtain ⟨front, j', back, rfl, rfl, ok, fails⟩ := ih h
      refine ⟨j :: front, j', back, rfl, ?_, ?_, ?_⟩
      · rw [List.length_cons]
        omega
      · rw [run_inOrder_of_ok hj]
        exact ok
      · rw [run_inOrder_of_ok hj]
        exact fails

/-! ## Batches -/

variable [ToString ε]

/-- **A batch is its jobs in order**, with one more line on the job that fails. -/
theorem run_runBatch (total i : Nat) (jobs : List (Job σ ε Unit)) (s : σ) :
    (runBatch total i jobs).run s =
      let o := (inOrder jobs).run s
      ⟨o.result, o.state, o.log ++ failureLog total (firstFailure i jobs s)⟩ := by
  induction jobs generalizing i s with
  | nil => rfl
  | cons j rest ih =>
    rw [runBatch_cons, Job.run_bind, run_runOne]
    rcases hj : j.run s with ⟨e | u, s', l⟩
    · have fails : (j.run s).result = .error e := by rw [hj]
      simp only [run_inOrder_of_error fails, firstFailure, hj]
      rfl
    · have ok : (j.run s).result = .ok () := by rw [hj]
      simp only [run_inOrder_of_ok ok, firstFailure, hj, Outcome.andThen_ok, ih]
      simp only [Outcome.after, List.append_assoc]

/-- **How a batch ends** that is run from a state. -/
inductive Ends (batch : List (Job σ ε Unit)) (s : σ) : Outcome σ ε Unit → Prop
  /-- All its jobs succeed. -/
  | well (ok : ((inOrder batch).run s).result = .ok ()) :
      Ends batch s ⟨.ok (), leave batch s, logged batch s⟩
  /-- A job fails and those in front of it succeed: what the job did before it failed stays, its
  failure is logged with its place in the batch, and those behind it make no difference. -/
  | badly {front back : List (Job σ ε Unit)} {j : Job σ ε Unit} {e : ε}
      (split : batch = front ++ j :: back) (ok : ((inOrder front).run s).result = .ok ())
      (fails : (j.run (leave front s)).result = .error e) :
      Ends batch s ⟨.error e, leave (front ++ [j]) s, logged (front ++ [j]) s ++
        [⟨.debug, "command " ++ toString (front.length + 1) ++ " of " ++ toString batch.length ++
          " failed: " ++ toString e⟩]⟩

theorem ends_runBatch (batch : List (Job σ ε Unit)) (s : σ) :
    Ends batch s ((runBatch batch.length 1 batch).run s) := by
  rw [run_runBatch]
  cases h : firstFailure 1 batch s with
  | none =>
    have ok := result_inOrder 1 batch s
    rw [h] at ok
    simp only [run_inOrder_of_result ok, failureLog, List.append_nil]
    exact .well ok
  | some found =>
    obtain ⟨k, e⟩ := found
    obtain ⟨front, j, back, split, rfl, ok, fails⟩ := exists_of_firstFailure h
    have there := run_inOrder_of_result ok
    rw [there] at fails
    have whole : (inOrder batch).run s =
        ⟨.error e, leave (front ++ [j]) s, logged (front ++ [j]) s⟩ := by
      rw [split, run_inOrder_append ok, there, run_inOrder_of_error fails, leave_append,
        logged_append, leave_cons, leave_nil, logged, logged, List.append_nil, ← fails]
      rfl
    simp only [whole, failureLog, Nat.add_comm 1]
    exact .badly split ok fails

end ShaderLink.Queue
