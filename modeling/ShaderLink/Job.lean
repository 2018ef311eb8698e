import ShaderLink.Log

/-!
# Work that may wait

A job works on a state, may fail, writes log lines and may have to wait for something outside, for
instance for an image to arrive. While it waits its work so far is in the state; what it still has
to do starts from the state it is handed when it goes on. A failed job keeps what it did to the
state before it failed.

**The law** (`run_bind`): to run one job after another is to run the second in the state that the
first leaves, unless the first fails. `run` never leaves a job waiting: it goes on at once in the
same state.
-/

set_option autoImplicit false

namespace ShaderLink

/-- What a job has come to when nothing is left to do. -/
structure Outcome (σ ε α : Type) where
  result : Except ε α
  state : σ
  log : List Log.Entry

/-- How far a job has come: to its end, or to a point where it waits. -/
inductive Progress (σ ε α : Type)
  | done (outcome : Outcome σ ε α)
  /-- The state and the log lines so far, and what is left to do. -/
  | waiting (state : σ) (log : List Log.Entry) (resume : σ → Progress σ ε α)

/-- Work on a state `σ` that gives an `α` or fails with an `ε`. -/
structure Job (σ ε α : Type) where
  start : σ → Progress σ ε α

variable {σ τ ε δ α β γ : Type}

/-! ## Outcomes -/

namespace Outcome

/-- The outcome with log lines in front. -/
def after (log : List Log.Entry) (o : Outcome σ ε α) : Outcome σ ε α :=
  { o with log := log ++ o.log }

/-- Goes on from an outcome that is no failure. -/
def andThen (o : Outcome σ ε α) (f : α → σ → Outcome σ ε β) : Outcome σ ε β :=
  match o.result with
  | .ok a => (f a o.state).after o.log
  | .error e => ⟨.error e, o.state, o.log⟩

end Outcome

/-! ## Progress -/

namespace Progress

/-- The progress with log lines in front. -/
def after (log : List Log.Entry) : Progress σ ε α → Progress σ ε α
  | done o => done (o.after log)
  | waiting s l resume => waiting s (log ++ l) resume

/-- Goes on with another job when this one has come to its end without failing. -/
def andThen (f : α → Job σ ε β) : Progress σ ε α → Progress σ ε β
  | done ⟨.ok a, s, l⟩ => ((f a).start s).after l
  | done ⟨.error e, s, l⟩ => done ⟨.error e, s, l⟩
  | waiting s l resume => waiting s l fun s' => (resume s').andThen f

/-- Goes on at each wait, in the state in which the job waits, up to the end. -/
def settle : Progress σ ε α → Outcome σ ε α
  | done o => o
  | waiting s l resume => (resume s).settle.after l

/-- Turns a failure into a result. -/
def attempt : Progress σ ε α → Progress σ ε (Except ε α)
  | done o => done ⟨.ok o.result, o.state, o.log⟩
  | waiting s l resume => waiting s l fun s' => (resume s').attempt

end Progress

/-- A part of a state: how it is read, and how it is put in place of the old one. -/
structure Part (σ τ : Type) where
  get : σ → τ
  put : τ → σ → σ
  get_put : ∀ t s, get (put t s) = t := by intros; rfl
  put_put : ∀ t u s, put t (put u s) = put t s := by intros; rfl

/-- The progress of a job on a part, seen from the whole. -/
def Progress.within (part : Part σ τ) (wrap : δ → ε) (s : σ) : Progress τ δ α → Progress σ ε α
  | done o => done ⟨o.result.mapError wrap, part.put o.state s, o.log⟩
  | waiting t l resume =>
    waiting (part.put t s) l fun s' => (resume (part.get s')).within part wrap s'

/-! ## Jobs -/

namespace Job

instance : Monad (Job σ ε) where
  pure a := ⟨fun s => .done ⟨.ok a, s, []⟩⟩
  bind x f := ⟨fun s => (x.start s).andThen f⟩

/-- The state. -/
def get : Job σ ε σ := ⟨fun s => .done ⟨.ok s, s, []⟩⟩

/-- Changes the state. -/
def modify (f : σ → σ) : Job σ ε Unit := ⟨fun s => .done ⟨.ok (), f s, []⟩⟩

/-- Fails, with the state as it is. -/
def fail (e : ε) : Job σ ε α := ⟨fun s => .done ⟨.error e, s, []⟩⟩

/-- Writes a log line. -/
def log (level : Log.Level) (text : String) : Job σ ε Unit :=
  ⟨fun s => .done ⟨.ok (), s, [⟨level, text⟩]⟩⟩

/-- Waits once. -/
def wait : Job σ ε Unit := ⟨fun s => .waiting s [] fun s' => .done ⟨.ok (), s', []⟩⟩

/-- The result, or the failure, that is known already. -/
def ofExcept : Except ε α → Job σ ε α
  | .ok a => pure a
  | .error e => fail e

/-- Does the same work and never fails: a failure becomes its result. -/
def attempt (j : Job σ ε α) : Job σ ε (Except ε α) := ⟨fun s => (j.start s).attempt⟩

/-- Does the work on a part of the state; `wrap` says what a failure of the part is for the
whole. -/
def within (part : Part σ τ) (wrap : δ → ε) (j : Job τ δ α) : Job σ ε α :=
  ⟨fun s => (j.start (part.get s)).within part wrap s⟩

/-- Does the work up to its end. -/
def run (j : Job σ ε α) (s : σ) : Outcome σ ε α := (j.start s).settle

end Job

/-! ## Laws of running -/

namespace Outcome

@[simp] theorem after_nil (o : Outcome σ ε α) : o.after [] = o := rfl

@[simp] theorem after_after (l m : List Log.Entry) (o : Outcome σ ε α) :
    (o.after m).after l = o.after (l ++ m) := by simp [after]

@[simp] theorem andThen_ok (a : α) (s : σ) (l : List Log.Entry) (f : α → σ → Outcome σ ε β) :
    andThen ⟨.ok a, s, l⟩ f = (f a s).after l := rfl

@[simp] theorem andThen_error (e : ε) (s : σ) (l : List Log.Entry) (f : α → σ → Outcome σ ε β) :
    andThen ⟨.error e, s, l⟩ f = ⟨.error e, s, l⟩ := rfl

theorem andThen_after (l : List Log.Entry) (o : Outcome σ ε α) (f : α → σ → Outcome σ ε β) :
    (o.after l).andThen f = (o.andThen f).after l := by
  rcases o with ⟨_ | a, s, m⟩ <;> simp [after, andThen]

end Outcome

namespace Progress

@[simp] theorem after_nil (p : Progress σ ε α) : p.after [] = p := by cases p <;> rfl

@[simp] theorem after_after (l m : List Log.Entry) (p : Progress σ ε α) :
    (p.after m).after l = p.after (l ++ m) := by cases p <;> simp [after]

theorem andThen_after (l : List Log.Entry) (p : Progress σ ε α) (f : α → Job σ ε β) :
    (p.after l).andThen f = (p.andThen f).after l := by
  cases p with
  | done o =>
    rcases o with ⟨e | a, s, m⟩
    · rfl
    · exact (after_after l m _).symm
  | waiting s m resume => rfl

@[simp] theorem settle_after (l : List Log.Entry) (p : Progress σ ε α) :
    (p.after l).settle = p.settle.after l := by
  cases p with
  | done o => rfl
  | waiting s m resume => simp [after, settle]

theorem settle_andThen (p : Progress σ ε α) (f : α → Job σ ε β) :
    (p.andThen f).settle = p.settle.andThen fun a => (f a).run := by
  induction p with
  | done o => rcases o with ⟨_ | a, s, m⟩ <;> simp [andThen, settle, Job.run]
  | waiting s l resume ih => simp [andThen, settle, ih, Outcome.andThen_after]

theorem andThen_assoc (p : Progress σ ε α) (f : α → Job σ ε β) (g : β → Job σ ε γ) :
    (p.andThen f).andThen g = p.andThen fun a => f a >>= g := by
  induction p with
  | done o => rcases o with ⟨_ | a, s, m⟩ <;> simp [andThen, andThen_after, bind]
  | waiting s l resume ih => simp [andThen, ih]

theorem andThen_pure (p : Progress σ ε α) : (p.andThen fun a => (pure a : Job σ ε α)) = p := by
  induction p with
  | done o => rcases o with ⟨_ | a, s, m⟩ <;> simp [andThen, pure, after, Outcome.after]
  | waiting s l resume ih => simp [andThen, ih]

theorem settle_attempt (p : Progress σ ε α) :
    p.attempt.settle = ⟨.ok p.settle.result, p.settle.state, p.settle.log⟩ := by
  induction p with
  | done o => rfl
  | waiting s l resume ih => simp [attempt, settle, ih, Outcome.after]

theorem settle_within (part : Part σ τ) (wrap : δ → ε) (s : σ) (p : Progress τ δ α) :
    (p.within part wrap s).settle =
      ⟨p.settle.result.mapError wrap, part.put p.settle.state s, p.settle.log⟩ := by
  induction p generalizing s with
  | done o => rfl
  | waiting t l resume ih =>
    simp [within, settle, ih, Outcome.after, part.get_put, part.put_put]

end Progress

namespace Job

@[simp] theorem run_pure (a : α) (s : σ) : (pure a : Job σ ε α).run s = ⟨.ok a, s, []⟩ := rfl

/-- **One job after another** works on in the state that the first leaves. -/
@[simp] theorem run_bind (x : Job σ ε α) (f : α → Job σ ε β) (s : σ) :
    (x >>= f).run s = (x.run s).andThen fun a => (f a).run :=
  Progress.settle_andThen ..

@[simp] theorem run_map (f : α → β) (x : Job σ ε α) (s : σ) :
    (f <$> x).run s = ⟨(x.run s).result.map f, (x.run s).state, (x.run s).log⟩ := by
  change (x >>= fun a => pure (f a)).run s = _
  rw [run_bind]
  rcases x.run s with ⟨e | a, s', l⟩ <;> simp [Except.map, Outcome.after]

@[simp] theorem run_get (s : σ) : (get : Job σ ε σ).run s = ⟨.ok s, s, []⟩ := rfl

@[simp] theorem run_modify (f : σ → σ) (s : σ) :
    (modify f : Job σ ε Unit).run s = ⟨.ok (), f s, []⟩ := rfl

@[simp] theorem run_fail (e : ε) (s : σ) : (fail e : Job σ ε α).run s = ⟨.error e, s, []⟩ := rfl

@[simp] theorem run_log (level : Log.Level) (text : String) (s : σ) :
    (log level text : Job σ ε Unit).run s = ⟨.ok (), s, [⟨level, text⟩]⟩ := rfl

@[simp] theorem run_wait (s : σ) : (wait : Job σ ε Unit).run s = ⟨.ok (), s, []⟩ := rfl

@[simp] theorem run_ofExcept (x : Except ε α) (s : σ) : (ofExcept x).run s = ⟨x, s, []⟩ := by
  cases x <;> rfl

@[simp] theorem run_attempt (j : Job σ ε α) (s : σ) :
    j.attempt.run s = ⟨.ok (j.run s).result, (j.run s).state, (j.run s).log⟩ :=
  Progress.settle_attempt _

@[simp] theorem run_within (part : Part σ τ) (wrap : δ → ε) (j : Job τ δ α) (s : σ) :
    (j.within part wrap).run s =
      ⟨(j.run (part.get s)).result.mapError wrap, part.put (j.run (part.get s)).state s,
        (j.run (part.get s)).log⟩ :=
  Progress.settle_within ..

instance : LawfulMonad (Job σ ε) :=
  LawfulMonad.mk' _
    (fun _ => congrArg Job.mk (funext fun _ => Progress.andThen_pure _))
    (fun _ _ => congrArg Job.mk (funext fun _ => Progress.after_nil _))
    (fun _ _ _ => congrArg Job.mk (funext fun _ => Progress.andThen_assoc ..))

end Job

end ShaderLink
