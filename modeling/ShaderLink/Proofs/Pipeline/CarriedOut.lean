import ShaderLink.Proofs.Pipeline.Deferred
import ShaderLink.Proofs.Pipeline.Trace

/-!
# Sessions are runs

Whatever is asked of a front, in the end operations are carried out on one pipeline, one after the
other: at once, or when they are submitted and none fails that was noted before them.
`carriedOut` is the list of them.

**The law** (`pipeline_after`): a session leaves the pipeline that a run of the operations carried
out leaves. What is known of all runs is then known of all sessions. A backend that keeps its calls
makes no difference to what is carried out (`carriedOut_untraced`).
-/

set_option autoImplicit false

namespace ShaderLink.Pipeline

variable {β ι π : Type} [Backend β ι π]

/-- The operations carried out when they are called in order: those in front of the first that
fails, and this one. -/
def upToFailure (p : Pipeline β ι π) : List Op → List Op
  | [] => []
  | op :: ops =>
    op ::
      match (op.step.run p).result with
      | .error _ => []
      | .ok () => (op.step.run p).state.upToFailure ops

/-- The operations that an action carries out. -/
def Ledger.carriedBy (l : Ledger β ι π) : Action → List Op
  | .op op => if l.noted.isSome then [] else [op]
  | .submit => l.pipeline.upToFailure (l.noted.getD [])
  | .release | .defer => []

/-- The operations that a script carries out. -/
def Ledger.carriedOut : Ledger β ι π → List Action → List Op
  | _, [] => []
  | l, a :: script => l.carriedBy a ++ (l.act a).state.carriedOut script

/-- The operations that a script carries out on a pipeline that is held directly at first. -/
def carriedOut (p : Pipeline β ι π) (script : List Action) : List Op :=
  (⟨p, none⟩ : Ledger β ι π).carriedOut script

/-- The front after a script. -/
def Front.after (f : Front β ι π) (script : List Action) : Front β ι π :=
  script.foldl (fun f a => (f.act a).state) f

/-- The ledger after a script. -/
def Ledger.after (l : Ledger β ι π) (script : List Action) : Ledger β ι π :=
  script.foldl (fun l a => (l.act a).state) l

/-! ## The pipeline that is left -/

theorem state_callAll (p : Pipeline β ι π) (ops : List Op) :
    ((callAll ops).run p).state = p.after (p.upToFailure ops) := by
  induction ops generalizing p with
  | nil => rfl
  | cons op ops ih =>
    rw [callAll, List.map_cons, upToFailure, after_cons]
    cases h : (op.step.run p).result with
    | error e => rw [Queue.run_inOrder_of_error h, after_nil]
    | ok u =>
      rw [Queue.run_inOrder_of_ok h]
      exact ih (op.step.run p).state

/-- **One action** carries out its operations and does nothing else to the pipeline. -/
theorem Ledger.pipeline_act (l : Ledger β ι π) (a : Action) :
    (l.act a).state.pipeline = l.pipeline.after (l.carriedBy a) := by
  rcases l with ⟨p, noted⟩
  cases a with
  | op op => cases noted <;> rfl
  | submit =>
    rcases noted with _ | _ | ⟨op, ops⟩
    · rfl
    · rfl
    · exact state_callAll p (op :: ops)
  | release | defer => rfl

theorem Ledger.pipeline_after (l : Ledger β ι π) (script : List Action) :
    (l.after script).pipeline = l.pipeline.after (l.carriedOut script) := by
  induction script generalizing l with
  | nil => rfl
  | cons a script ih =>
    rw [carriedOut, after_append, ← pipeline_act]
    exact ih (l.act a).state

theorem Shows.after {f : Front β ι π} {l : Ledger β ι π} (h : Shows f l) (script : List Action) :
    Shows (f.after script) (l.after script) := by
  induction script generalizing f l with
  | nil => exact h
  | cons a script ih => exact ih (shows_act h a).2.2

/-- **A session leaves what a run of the operations carried out leaves.** -/
theorem pipeline_after (p : Pipeline β ι π) (script : List Action) :
    ((Front.direct p).after script).pipeline = p.after (p.carriedOut script) := by
  rw [((Shows.direct p).after script).pipeline_eq, Ledger.pipeline_after]
  rfl

/-! ## Calls left out -/

/-- The ledger with the calls left out. -/
def Ledger.untraced (l : Ledger (Traced β ι π) ι π) : Ledger β ι π :=
  ⟨l.pipeline.untraced, l.noted⟩

theorem upToFailure_untraced (t : Pipeline (Traced β ι π) ι π) (ops : List Op) :
    t.untraced.upToFailure ops = t.upToFailure ops := by
  induction ops generalizing t with
  | nil => rfl
  | cons op ops ih =>
    rw [upToFailure, upToFailure, run_step_untraced]
    simp only [Outcome.mapState, ih]

theorem Ledger.carriedBy_untraced (l : Ledger (Traced β ι π) ι π) (a : Action) :
    l.untraced.carriedBy a = l.carriedBy a := by
  cases a with
  | op op => rfl
  | submit => exact upToFailure_untraced ..
  | release | defer => rfl

theorem Ledger.act_untraced (l : Ledger (Traced β ι π) ι π) (a : Action) :
    (l.untraced.act a).state = (l.act a).state.untraced := by
  have pipeline : (l.untraced.act a).state.pipeline = (l.act a).state.pipeline.untraced := by
    rw [pipeline_act, pipeline_act, carriedBy_untraced, untraced_after]
    rfl
  have noted : (l.untraced.act a).state.noted = (l.act a).state.noted := by
    rcases l with ⟨p, _ | _ | ⟨op, ops⟩⟩ <;> cases a <;> rfl
  change _ = (⟨(l.act a).state.pipeline.untraced, (l.act a).state.noted⟩ : Ledger β ι π)
  rw [← pipeline, ← noted]

/-- **What is carried out** does not depend on whether the backend keeps its calls. -/
theorem carriedOut_untraced (t : Pipeline (Traced β ι π) ι π) (script : List Action) :
    t.untraced.carriedOut script = t.carriedOut script := by
  suffices h : ∀ l : Ledger (Traced β ι π) ι π,
      l.untraced.carriedOut script = l.carriedOut script from h ⟨t, none⟩
  induction script with
  | nil => exact fun _ => rfl
  | cons a script ih =>
    intro l
    rw [Ledger.carriedOut, Ledger.carriedOut, Ledger.carriedBy_untraced, Ledger.act_untraced, ih]

end ShaderLink.Pipeline
