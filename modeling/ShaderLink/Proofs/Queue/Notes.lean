import ShaderLink.Queue

/-!
# Notes on jobs at work

How a job is carried out can be seen from inside: beside the state stands a list of notes, and a job
that is noted writes there that it starts, each time that it waits, and that it ends, with the state
at that point. A noted job is itself a job, on the state with the notes. So it can be put into a
queue, and the queue knows nothing of it.

**The law** (`run_noted`): a noted job does what the job does, and notes that it starts, its waits
(`Progress.waits`) and that it ends, in this order. Jobs that are carried out one within the other
would leave their notes one within the other.
-/

set_option autoImplicit false

namespace ShaderLink

variable {σ τ ε δ α β : Type}

/-! ## Waits -/

/-- The states in which work waits until it comes to its end. -/
def Progress.waits : Progress σ ε α → List σ
  | done _ => []
  | waiting s _ resume => s :: (resume s).waits

@[simp] theorem Progress.waits_after (l : List Log.Entry) (p : Progress σ ε α) :
    (p.after l).waits = p.waits := by cases p <;> rfl

@[simp] theorem Progress.waits_attempt (p : Progress σ ε α) : p.attempt.waits = p.waits := by
  induction p with
  | done o => rfl
  | waiting s l resume ih => rw [attempt, waits, waits, ih]

/-- What goes on with another job waits where it does, and then where the other job does. -/
theorem Progress.waits_andThen (p : Progress σ ε α) (f : α → Job σ ε β) :
    (p.andThen f).waits = p.waits ++
      match p.settle.result with
      | .ok a => ((f a).start p.settle.state).waits
      | .error _ => [] := by
  induction p with
  | done o =>
    rcases o with ⟨e | a, s, l⟩
    · rfl
    · simp [andThen, settle, waits]
  | waiting s l resume ih => simp only [andThen, settle, waits, ih, Outcome.after, List.cons_append]

/-- Work on a part waits where it waits there, and leaves the rest of the state as it is. -/
theorem Progress.waits_within (part : Part σ τ) (wrap : δ → ε) (s : σ) (p : Progress τ δ α) :
    (p.within part wrap s).waits = p.waits.map fun t => part.put t s := by
  induction p generalizing s with
  | done o => rfl
  | waiting t l resume ih =>
    simp only [within, waits, ih, part.get_put, part.put_put, List.map_cons]

namespace Queue

/-! ## Notes -/

/-- What is noted of the job with a number, with the state at that point. -/
inductive Note (σ ε : Type)
  | starts (number : Nat) (state : σ)
  | waits (number : Nat) (state : σ)
  | ends (number : Nat) (state : σ) (result : Except ε Unit)

/-- A state with the notes so far beside it. -/
structure Noted (σ ε : Type) where
  state : σ
  notes : List (Note σ ε)

/-- The progress of job `number`, which notes what is still to come behind the notes so far. -/
def noting (number : Nat) (notes : List (Note σ ε)) :
    Progress σ ε Unit → Progress (Noted σ ε) ε Unit
  | .done o => .done ⟨o.result, ⟨o.state, notes ++ [.ends number o.state o.result]⟩, o.log⟩
  | .waiting s l resume =>
    .waiting ⟨s, notes ++ [.waits number s]⟩ l fun n => noting number n.notes (resume n.state)

/-- The same job with notes taken. -/
def noted (number : Nat) (j : Job σ ε Unit) : Job (Noted σ ε) ε Unit :=
  ⟨fun n => noting number (n.notes ++ [.starts number n.state]) (j.start n.state)⟩

/-- A job that was run: its number, the job, and the state in which it started. -/
structure Ran (σ ε : Type) where
  number : Nat
  job : Job σ ε Unit
  before : σ

/-- What the job came to. -/
def Ran.outcome (r : Ran σ ε) : Outcome σ ε Unit := r.job.run r.before

/-- The states in which the job waited. -/
def Ran.waits (r : Ran σ ε) : List σ := (r.job.start r.before).waits

/-- The notes of a job that was run by itself, from its start to its end. -/
def Ran.notes (r : Ran σ ε) : List (Note σ ε) :=
  .starts r.number r.before :: r.waits.map (.waits r.number) ++
    [.ends r.number r.outcome.state r.outcome.result]

theorem settle_noting (number : Nat) (notes : List (Note σ ε)) (p : Progress σ ε Unit) :
    (noting number notes p).settle =
      let o := p.settle
      ⟨o.result, ⟨o.state, notes ++ p.waits.map (.waits number) ++ [.ends number o.state o.result]⟩,
        o.log⟩ := by
  induction p generalizing notes with
  | done o => simp only [noting, Progress.settle, Progress.waits, List.map_nil, List.append_nil]
  | waiting s l resume ih =>
    simp only [noting, Progress.settle, Progress.waits, ih, Outcome.after, List.map_cons,
      List.append_assoc, List.cons_append, List.nil_append]

/-- **A noted job** does what the job does and notes it from the start to the end. -/
theorem run_noted (number : Nat) (j : Job σ ε Unit) (n : Noted σ ε) :
    (noted number j).run n =
      let r : Ran σ ε := ⟨number, j, n.state⟩
      ⟨r.outcome.result, ⟨r.outcome.state, n.notes ++ r.notes⟩, r.outcome.log⟩ := by
  change (noting number _ (j.start n.state)).settle = _
  rw [settle_noting]
  simp only [Ran.outcome, Ran.waits, Ran.notes, Job.run, List.append_assoc, List.cons_append,
    List.nil_append]

end Queue

end ShaderLink
