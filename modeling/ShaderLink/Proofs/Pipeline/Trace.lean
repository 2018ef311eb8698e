import ShaderLink.Backend.Traced
import ShaderLink.Proofs.Pipeline.Steps

/-!
# Pipelines whose backend keeps its calls

Statements on what reached a backend are made on a pipeline over a backend that keeps its calls.
They are statements on every pipeline.

An operation knows its backend only through the answers to its calls. So when the states of one
backend can be seen as those of another that answers alike (`Backend.IsView`), the pipelines over
both do the same (`run_step_viewed`). Two views are used: a backend with its calls left out, and a
backend with more calls in front of those that it keeps. An operation that registers nothing knows the
registry only through the program of its entry point, so that the registry may be seen in another way
as well (`run_call_seen`).

**The laws**: a run over a backend that keeps its calls is, the calls left out, the run of the same
operations over the backend itself (`untraced_after`; `run_step_untraced` is the step, answers and log
lines included). What a run adds to the calls kept are the calls of its operations, one after the
other (`calls_after`), whatever was kept before.
-/

set_option autoImplicit false

namespace ShaderLink

/-- The outcome with its state seen in another way. -/
def Outcome.mapState {σ τ ε α : Type} (f : σ → τ) (o : Outcome σ ε α) : Outcome τ ε α :=
  ⟨o.result, f o.state, o.log⟩

/-- What goes on alike from states seen in another way goes on alike from outcomes. -/
theorem Outcome.mapState_andThen {σ τ ε α γ : Type} {f : σ → τ} {g : α → σ → Outcome σ ε γ}
    {h : α → τ → Outcome τ ε γ} (alike : ∀ a s, h a (f s) = (g a s).mapState f)
    (o : Outcome σ ε α) : (o.mapState f).andThen h = (o.andThen g).mapState f := by
  rcases o with ⟨e | a, s, l⟩
  · rfl
  · simp [mapState, alike, after]

variable {β γ ι π : Type}

/-! ## Views of a backend -/

/-- **Seen through `f`, a backend answers every call as another does**, and moves on alike. -/
structure Backend.IsView [Backend β ι π] [Backend γ ι π] (f : β → γ) : Prop where
  imageSize : ∀ i : ι, imageSize γ i = imageSize β i
  compile : ∀ (source : String) (b : β),
    (compile source).run (f b) = ((compile source).run b).mapState f
  createTarget : ∀ (size : Size) (b : β),
    (createTarget size).run (f b) = ((createTarget size).run b).mapState f
  draw : ∀ (program : π) (input : ι) (output : Destination ι) (given : Uniforms) (b : β),
    (draw program input output given).run (f b) =
      ((draw program input output given).run b).mapState f
  decode : ∀ (locator : String) (b : β),
    (decode locator).run (f b) = ((decode locator).run b).mapState f

namespace Traced

/-- A call that was made is kept behind the others. -/
theorem calls_of_keeping {α : Type} {call : Except BackendError α → Call ι π}
    {j : Job β BackendError α} {r : Except BackendError α} {s t : Traced β ι π}
    {l : List Log.Entry} (h : (keeping call j).run s = ⟨r, t, l⟩) :
    t.calls.toList = s.calls.toList ++ [call r] := by
  rw [run_keeping, Outcome.mk.injEq] at h
  obtain ⟨rfl, rfl, -⟩ := h
  exact Array.toList_push

/-- The backend with these calls in front of those that it keeps. -/
def behind (calls : Array (Call ι π)) (t : Traced β ι π) : Traced β ι π :=
  { t with calls := calls ++ t.calls }

private theorem run_keeping_behind {α : Type} (calls : Array (Call ι π))
    (call : Except BackendError α → Call ι π) (j : Job β BackendError α) (t : Traced β ι π) :
    (keeping call j).run (t.behind calls) = ((keeping call j).run t).mapState (behind calls) := by
  rw [run_keeping, run_keeping]
  simp only [behind, Outcome.mapState, Array.append_push]

variable [Backend β ι π]

theorem isView_backend : Backend.IsView (Traced.backend : Traced β ι π → β) where
  imageSize _ := rfl
  compile source t := congrArg (Outcome.mapState backend) (run_keeping (.compile source) _ t).symm
  createTarget size t :=
    congrArg (Outcome.mapState backend) (run_keeping (.createTarget size) _ t).symm
  draw program input output given t :=
    congrArg (Outcome.mapState backend) (run_keeping (.draw program input output given) _ t).symm
  decode locator t := congrArg (Outcome.mapState backend) (run_keeping (.decode locator) _ t).symm

theorem isView_behind (calls : Array (Call ι π)) :
    Backend.IsView (behind calls : Traced β ι π → Traced β ι π) where
  imageSize _ := rfl
  compile source := run_keeping_behind calls (.compile source) _
  createTarget size := run_keeping_behind calls (.createTarget size) _
  draw program input output given :=
    run_keeping_behind calls (.draw program input output given) _
  decode locator := run_keeping_behind calls (.decode locator) _

end Traced

namespace Pipeline

/-- The pipeline with its backend seen in another way. -/
def viewed (f : β → γ) (p : Pipeline β ι π) : Pipeline γ ι π where
  backend := f p.backend
  registry := p.registry
  options := p.options
  programs := p.programs
  cache := p.cache
  current := p.current
  saved := p.saved

/-- The pipeline over the backend itself. -/
def untraced (p : Pipeline (Traced β ι π) ι π) : Pipeline β ι π where
  backend := p.backend.backend
  registry := p.registry
  options := p.options
  programs := p.programs
  cache := p.cache
  current := p.current
  saved := p.saved

/-- The pipeline over a backend that keeps its calls from now on. -/
def traced (p : Pipeline β ι π) : Pipeline (Traced β ι π) ι π := p.viewed .of

@[simp] theorem untraced_traced (p : Pipeline β ι π) : p.traced.untraced = p := rfl

/-- The pipeline with its backend and its registry seen in another way. -/
def seen (f : β → γ) (g : Registry → Registry) (p : Pipeline β ι π) : Pipeline γ ι π :=
  { p.viewed f with registry := g p.registry }

/-! ## Parts of operations -/

section Parts

variable {f : β → γ} {g : Registry → Registry} (p : Pipeline β ι π)

private theorem run_onBackend_seen {α : Type} {j : Job β BackendError α}
    {k : Job γ BackendError α} (alike : k.run (f p.backend) = (j.run p.backend).mapState f) :
    (onBackend k : Step γ ι π α).run (p.seen f g) =
      ((onBackend j : Step β ι π α).run p).mapState (seen f g) := by
  rw [run_onBackend, run_onBackend]
  change Outcome.mk ((k.run (f p.backend)).result.mapError _)
    { p.seen f g with backend := (k.run (f p.backend)).state } (k.run (f p.backend)).log = _
  rw [alike]
  rfl

private theorem run_register_viewed (source : String) :
    (register source).run (p.viewed f) = ((register source).run p).mapState (viewed f) := by
  rcases read : p.registry.register source with e | ⟨registry, done⟩
  · rw [run_register_error read, run_register_error (p := p.viewed f) read]
    rfl
  · rw [run_register_ok read, run_register_ok (p := p.viewed f) read]
    rfl

variable [Backend β ι π] [Backend γ ι π] (view : Backend.IsView f)
include view

private theorem run_compile_seen {entry : String}
    (same : (p.seen f g).generate entry = p.generate entry) :
    (compile entry).run (p.seen f g) = ((compile entry).run p).mapState (seen f g) := by
  cases text : p.generate entry with
  | error e =>
    rw [run_compile_error text, run_compile_error (same.trans text)]
    rfl
  | ok source =>
    have call : (Backend.compile source).run (p.seen f g).backend = _ :=
      view.compile source p.backend
    rw [run_compile_ok text, run_compile_ok (same.trans text), call]
    rcases (Backend.compile source).run p.backend with ⟨e | c, b, l⟩ <;> rfl

private theorem run_program_seen {entry : String}
    (same : p.cached? entry = none → (p.seen f g).generate entry = p.generate entry) :
    (program entry).run (p.seen f g) = ((program entry).run p).mapState (seen f g) := by
  have cached : (p.seen f g).cached? entry = p.cached? entry := rfl
  rw [run_program, run_program, cached]
  cases new : p.cached? entry with
  | some id => rfl
  | none => exact run_compile_seen p view (same new)

private theorem run_draw_seen (id : ProgramId) (output : Destination ι) (given : Uniforms) :
    (draw id output given).run (p.seen f g) =
      ((draw id output given).run p).mapState (seen f g) := by
  have same : (p.seen f g).programs.get? id = p.programs.get? id := rfl
  rw [run_draw, run_draw, same]
  cases p.programs.get? id with
  | none => rfl
  | some k =>
    have uniforms : (p.seen f g).uniformsFor k given = p.uniformsFor k given := by
      simp only [uniformsFor, view.imageSize]
      rfl
    simp only [uniforms]
    exact run_onBackend_seen p (view.draw k.compiled p.current output _ p.backend)

end Parts

/-! ## Operations -/

variable [Backend β ι π] [Backend γ ι π] {f : β → γ}

/-- A pipeline is created alike over backends that answer alike. -/
theorem create_viewed (view : Backend.IsView f) (b : β) (registry : Registry) (options : Options) :
    (create (f b) registry options).result = (create b registry options).result.map (viewed f) := by
  simp only [create, view.createTarget]
  rcases (Backend.createTarget options.size).run b with ⟨e | image, b', l⟩ <;> rfl

private theorem run_map_mapState {σ τ ε α α' : Type} {j : Job σ ε α} {k : Job τ ε α} {h : σ → τ}
    {s : σ} (alike : k.run (h s) = (j.run s).mapState h) (a : α → α') :
    (a <$> k).run (h s) = ((a <$> j).run s).mapState h := by
  rw [Job.run_map, Job.run_map, alike]
  rfl

/-- **An operation that registers nothing knows its backend only through the answers to its calls,
and the registry only through the program of an entry point that is not cached.** -/
theorem run_call_seen (view : Backend.IsView f) {g : Registry → Registry} {op : Op}
    (other : ∀ source, op ≠ .register source) (p : Pipeline β ι π)
    (same : ∀ entry, op.entry? = some entry → p.cached? entry = none →
      (p.seen f g).generate entry = p.generate entry) :
    op.call.run (p.seen f g) = (op.call.run p).mapState (seen f g) := by
  cases op with
  | register source => exact absurd rfl (other source)
  | program entry => exact run_map_mapState (run_program_seen p view (same entry rfl)) _
  | apply entry given =>
    refine run_map_mapState ?_ _
    rw [run_apply, run_apply, run_program_seen p view (same entry rfl)]
    refine Outcome.mapState_andThen (fun id p => ?_) _
    rw [run_onBackend_seen p (view.createTarget _ p.backend)]
    refine Outcome.mapState_andThen (fun target p => ?_) _
    rw [run_draw_seen p view]
    refine Outcome.mapState_andThen (fun _ _ => ?_) _
    rfl
  | load locator =>
    have call : (Backend.decode locator).run (p.seen f g).backend = _ :=
      view.decode locator p.backend
    refine run_map_mapState ?_ _
    rw [run_load, run_load, call]
    rcases (Backend.decode locator).run p.backend with ⟨e | image, b, l⟩ <;> rfl
  | present =>
    refine run_map_mapState ?_ _
    rw [run_present, run_present, run_program_seen p view (same "pass" rfl)]
    exact Outcome.mapState_andThen (fun id p => run_draw_seen p view id _ _) _
  | save name =>
    refine run_map_mapState ?_ _
    rw [run_save, run_save]
    rfl
  | restore name =>
    have known : (p.seen f g).saved? name = p.saved? name := rfl
    refine run_map_mapState ?_ _
    rw [run_restore, run_restore, known]
    cases p.saved? name <;> rfl

/-- **An operation knows its backend only through the answers to its calls.** -/
theorem run_step_viewed (view : Backend.IsView f) (op : Op) (p : Pipeline β ι π) :
    op.step.run (p.viewed f) = (op.step.run p).mapState (viewed f) := by
  by_cases other : ∀ source, op ≠ .register source
  · rw [Op.step_eq_map_call, Op.step_eq_map_call]
    exact run_map_mapState (run_call_seen (g := id) view other p fun _ _ _ => rfl) _
  · obtain ⟨source, registers⟩ := Classical.not_forall.1 other
    obtain rfl := Classical.not_not.1 registers
    rw [Op.step, Op.step, Job.run_bind, Job.run_bind, run_register_viewed]
    refine Outcome.mapState_andThen (fun _ _ => ?_) _
    rfl

/-! ## Calls left out -/

/-- A pipeline that is created over a backend with no calls yet is, the calls left out, the one that
is created over the backend. -/
theorem create_untraced (b : β) (registry : Registry) (options : Options) :
    (create b registry options).result =
      (create (Traced.of b) registry options).result.map untraced :=
  create_viewed Traced.isView_backend (Traced.of b) registry options

/-- What is created over a backend is created over the backend that keeps its calls. -/
theorem exists_traced_of_create {b : β} {registry : Registry} {options : Options}
    {p : Pipeline β ι π} (h : (create b registry options).result = .ok p) :
    ∃ t : Pipeline (Traced β ι π) ι π,
      (create (Traced.of b) registry options).result = .ok t ∧ t.untraced = p := by
  rw [create_untraced] at h
  cases ht : (create (Traced.of b : Traced β ι π) registry options).result with
  | error e =>
    rw [ht] at h
    cases h
  | ok t =>
    rw [ht] at h
    exact ⟨t, rfl, Except.ok.inj h⟩

/-- **Keeping calls changes nothing that an operation does.** -/
theorem run_step_untraced (op : Op) (p : Pipeline (Traced β ι π) ι π) :
    op.step.run p.untraced = (op.step.run p).mapState untraced :=
  run_step_viewed Traced.isView_backend op p

/-- **A run over a backend that keeps its calls is the run over the backend**, but for the calls. -/
theorem untraced_after (p : Pipeline (Traced β ι π) ι π) (ops : List Op) :
    (p.after ops).untraced = p.untraced.after ops := by
  induction ops generalizing p with
  | nil => rfl
  | cons op ops ih =>
    rw [after_cons, after_cons, ih, run_step_untraced]
    rfl

/-! ## The calls of an operation -/

/-- The calls that an operation makes, with what came of them. -/
def callsOf (p : Pipeline β ι π) (op : Op) : List (Call ι π) :=
  (op.step.run p.traced).state.backend.calls.toList

/-- The calls that operations make when each is carried out, whatever became of those before. -/
def callsAfter (p : Pipeline β ι π) : List Op → List (Call ι π)
  | [] => []
  | op :: ops => p.callsOf op ++ (op.step.run p).state.callsAfter ops

theorem callsAfter_append (p : Pipeline β ι π) (ops more : List Op) :
    p.callsAfter (ops ++ more) = p.callsAfter ops ++ (p.after ops).callsAfter more := by
  induction ops generalizing p with
  | nil => rfl
  | cons op ops ih =>
    rw [List.cons_append, callsAfter, callsAfter, ih, List.append_assoc, after_cons]

/-- An operation adds its calls to those kept, whatever these are. -/
theorem calls_step (p : Pipeline (Traced β ι π) ι π) (op : Op) :
    (op.step.run p).state.backend.calls.toList =
      p.backend.calls.toList ++ p.untraced.callsOf op := by
  have same : p = p.untraced.traced.viewed (Traced.behind p.backend.calls) := by
    simp [viewed, traced, untraced, Traced.behind, Traced.of]
  rw [congrArg op.step.run same, run_step_viewed (Traced.isView_behind _)]
  exact Array.toList_append

/-- **A run adds the calls of its operations**, one after the other. -/
theorem calls_after (p : Pipeline (Traced β ι π) ι π) (ops : List Op) :
    (p.after ops).backend.calls.toList = p.backend.calls.toList ++ p.untraced.callsAfter ops := by
  induction ops generalizing p with
  | nil => simp [callsAfter]
  | cons op ops ih =>
    rw [after_cons, ih, calls_step, List.append_assoc, callsAfter, run_step_untraced]
    rfl

/-- **All calls that reach a backend** from the creation of a pipeline on: the one that hands out its
first image, and those of its operations. -/
theorem calls_of_create {b : β} {registry : Registry} {options : Options}
    {t : Pipeline (Traced β ι π) ι π}
    (h : (create (Traced.of b) registry options).result = .ok t) (ops : List Op) :
    (t.after ops).backend.calls.toList =
      .createTarget options.size (.ok t.current) :: t.untraced.callsAfter ops := by
  obtain ⟨image, b', l, call, rfl⟩ := exists_of_create h
  rw [calls_after, show b'.calls.toList = _ from Traced.calls_of_keeping call]
  rfl

/-- A call of a run is one of an operation of the run. -/
theorem exists_mem_callsOf {p : Pipeline β ι π} {call : Call ι π} {ops : List Op}
    (h : call ∈ p.callsAfter ops) :
    ∃ before op later, ops = before ++ op :: later ∧ call ∈ (p.after before).callsOf op := by
  induction ops generalizing p with
  | nil => simp [callsAfter] at h
  | cons op ops ih =>
    obtain now | behind := List.mem_append.1 h
    · exact ⟨[], op, ops, rfl, now⟩
    · obtain ⟨before, op', later, rfl, made⟩ := ih behind
      exact ⟨op :: before, op', later, rfl, made⟩

end Pipeline

end ShaderLink
