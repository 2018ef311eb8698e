import ShaderLink.Pipeline.Run

/-!
# The ways an operation can go

A pipeline's operation stops at its first failure, and what it did before stays done. `Op.Runs`
lists the ways: one constructor for each way to succeed and for each point at which an operation can
fail, with what was asked of the backend and the pipeline that is left. `Built` does this for the
program of an entry point, `Drawn` for a draw.

**The law** (`runs_step`): whatever an operation does is on the list. A statement on all operations
is then proved by one case for each constructor, and no such proof opens an operation.

**What it does not establish.** The list leaves out the log. It says nothing of what a backend
answers: each way stands under the answer that leads to it.
-/

set_option autoImplicit false

namespace ShaderLink.Pipeline

variable {β ι π : Type}

/-- The entry point whose program an operation asks for. -/
def Op.entry? : Op → Option String
  | .program entry => some entry
  | .apply entry _ => some entry
  | .present => some "pass"
  | .register _ | .load _ | .save _ | .restore _ => none

variable [Backend β ι π]

/-- What asking for the program of an entry point comes to. -/
inductive Built (p : Pipeline β ι π) (entry : String) :
    Except PipelineError ProgramId → Pipeline β ι π → Prop
  | cached {id : ProgramId} (known : p.cached? entry = some id) : Built p entry (.ok id) p
  | ungenerated {e : BuildError} (new : p.cached? entry = none)
      (text : p.generate entry = .error e) : Built p entry (.error (.build e)) p
  | refused {source : String} {e : BackendError} {b : β} {l : List Log.Entry}
      (new : p.cached? entry = none) (text : p.generate entry = .ok source)
      (call : (Backend.compile source).run p.backend = ⟨.error e, b, l⟩) :
      Built p entry (.error (.backend e)) { p with backend := b }
  | compiled {source : String} {c : π} {b : β} {l : List Log.Entry}
      (new : p.cached? entry = none) (text : p.generate entry = .ok source)
      (call : (Backend.compile source).run p.backend = ⟨.ok c, b, l⟩) :
      Built p entry (.ok (p.programs.insert (keep source c)).2)
        { p with
          backend := b
          programs := (p.programs.insert (keep source c)).1
          cache := p.cache.insert entry (p.programs.insert (keep source c)).2 }

/-- What a draw comes to. -/
inductive Drawn (p : Pipeline β ι π) (id : ProgramId) (output : Destination ι) (given : Uniforms) :
    Except PipelineError Unit → Pipeline β ι π → Prop
  | unknown (missing : p.programs.get? id = none) :
      Drawn p id output given (.error (.unknownProgram id.number)) p
  | called {k : KeptProgram π} {r : Except BackendError Unit} {b : β} {l : List Log.Entry}
      (known : p.programs.get? id = some k)
      (call : (Backend.draw k.compiled p.current output (p.uniformsFor k given)).run p.backend =
        ⟨r, b, l⟩) :
      Drawn p id output given (r.mapError .backend) { p with backend := b }

/-- **What an operation comes to**: whether it succeeds, and the pipeline that it leaves. -/
inductive Op.Runs (p : Pipeline β ι π) : Op → Except PipelineError Unit → Pipeline β ι π → Prop
  | registered {source : String} {registry : Registry} {done : Registration}
      (read : p.registry.register source = .ok (registry, done)) :
      Runs p (.register source) (.ok ()) { p with registry := registry }
  | unread {source : String} {e : BuildError} (read : p.registry.register source = .error e) :
      Runs p (.register source) (.error (.build e)) p
  | unbuilt {op : Op} {entry : String} {e : PipelineError} {p' : Pipeline β ι π}
      (asks : op.entry? = some entry) (build : Built p entry (.error e) p') :
      Runs p op (.error e) p'
  | built {entry : String} {id : ProgramId} {p' : Pipeline β ι π}
      (build : Built p entry (.ok id) p') : Runs p (.program entry) (.ok ()) p'
  | untargeted {entry : String} {given : Uniforms} {id : ProgramId} {p' : Pipeline β ι π}
      {e : BackendError} {b : β} {l : List Log.Entry} (build : Built p entry (.ok id) p')
      (call : (Backend.createTarget p'.options.size).run p'.backend = ⟨.error e, b, l⟩) :
      Runs p (.apply entry given) (.error (.backend e)) { p' with backend := b }
  | undrawn {entry : String} {given : Uniforms} {id : ProgramId} {p' p'' : Pipeline β ι π}
      {target : ι} {b : β} {l : List Log.Entry} {e : PipelineError}
      (build : Built p entry (.ok id) p')
      (call : (Backend.createTarget p'.options.size).run p'.backend = ⟨.ok target, b, l⟩)
      (draw : Drawn { p' with backend := b } id (.image target) given (.error e) p'') :
      Runs p (.apply entry given) (.error e) p''
  | applied {entry : String} {given : Uniforms} {id : ProgramId} {p' p'' : Pipeline β ι π}
      {target : ι} {b : β} {l : List Log.Entry} (build : Built p entry (.ok id) p')
      (call : (Backend.createTarget p'.options.size).run p'.backend = ⟨.ok target, b, l⟩)
      (draw : Drawn { p' with backend := b } id (.image target) given (.ok ()) p'') :
      Runs p (.apply entry given) (.ok ()) { p'' with current := target }
  | presented {id : ProgramId} {p' p'' : Pipeline β ι π} {r : Except PipelineError Unit}
      (build : Built p "pass" (.ok id) p') (draw : Drawn p' id .surface ∅ r p'') :
      Runs p .present r p''
  | loaded {locator : String} {image : ι} {b : β} {l : List Log.Entry}
      (call : (Backend.decode locator).run p.backend = ⟨.ok image, b, l⟩) :
      Runs p (.load locator) (.ok ()) { p with backend := b, current := image }
  | undecoded {locator : String} {e : BackendError} {b : β} {l : List Log.Entry}
      (call : (Backend.decode locator).run p.backend = ⟨.error e, b, l⟩) :
      Runs p (.load locator) (.error (.backend e)) { p with backend := b }
  | saved {name : String} :
      Runs p (.save name) (.ok ()) { p with saved := p.saved.insert name p.current }
  | restored {name : String} {image : ι} (known : p.saved? name = some image) :
      Runs p (.restore name) (.ok ()) { p with current := image }
  | unsaved {name : String} (missing : p.saved? name = none) :
      Runs p (.restore name) (.error (.unknownBuffer name)) p

/-! ## Every operation is on the list -/

theorem built_of_run {entry : String} {p : Pipeline β ι π}
    {o : Outcome (Pipeline β ι π) PipelineError ProgramId} (h : (program entry).run p = o) :
    Built p entry o.result o.state := by
  subst h
  rw [run_program]
  cases new : p.cached? entry with
  | some id => exact .cached new
  | none =>
    cases text : p.generate entry with
    | error e =>
      simpa only [run_compile_error text] using Built.ungenerated new text
    | ok source =>
      simp only [run_compile_ok text]
      rcases call : (Backend.compile source).run p.backend with ⟨e | c, b, l⟩
      · exact .refused new text call
      · exact .compiled new text call

theorem drawn_of_run {id : ProgramId} {output : Destination ι} {given : Uniforms}
    {p : Pipeline β ι π} {o : Outcome (Pipeline β ι π) PipelineError Unit}
    (h : (draw id output given).run p = o) : Drawn p id output given o.result o.state := by
  subst h
  rw [run_draw]
  cases known : p.programs.get? id with
  | none => exact .unknown known
  | some k =>
    simp only [run_onBackend]
    exact .called known rfl

private theorem runs_apply (entry : String) (given : Uniforms) (p : Pipeline β ι π) :
    (Op.apply entry given).Runs p ((apply entry given).run p).result
      ((apply entry given).run p).state := by
  rw [run_apply]
  rcases h : (program entry).run p with ⟨e | id, p', l⟩
  · exact .unbuilt rfl (built_of_run h)
  have build := built_of_run h
  simp only [Outcome.andThen_ok, run_onBackend]
  rcases call : (Backend.createTarget p'.options.size).run p'.backend with ⟨e | target, b, m⟩
  · exact .untargeted build call
  rw [mapError_ok, Outcome.andThen_ok]
  rcases hd : (draw id (.image target) given).run { p' with backend := b } with ⟨e | u, p'', n⟩
  · exact .undrawn build call (drawn_of_run hd)
  · exact .applied build call (drawn_of_run hd)

private theorem runs_present (p : Pipeline β ι π) :
    Op.present.Runs p (present.run p).result (present.run p).state := by
  rw [run_present]
  rcases h : (program "pass").run p with ⟨e | id, p', l⟩
  · exact .unbuilt rfl (built_of_run h)
  · rw [Outcome.andThen_ok]
    rcases hd : (draw id .surface ∅).run p' with ⟨r, p'', m⟩
    have draw := drawn_of_run hd
    exact .presented (built_of_run h) draw

/-- **Every operation goes one of the ways listed.** -/
theorem runs_step (op : Op) (p : Pipeline β ι π) :
    op.Runs p (op.step.run p).result (op.step.run p).state := by
  cases op with
  | register source =>
    rw [Op.step, Job.run_bind]
    rcases read : p.registry.register source with e | ⟨registry, done⟩
    · rw [run_register_error read]
      exact .unread read
    · rw [run_register_ok read]
      exact .registered read
  | program entry =>
    rw [Op.step, Job.run_bind]
    rcases h : (program entry).run p with ⟨e | id, p', l⟩
    · exact .unbuilt rfl (built_of_run h)
    · exact .built (built_of_run h)
  | apply entry given => exact runs_apply entry given p
  | load locator =>
    rw [Op.step, run_load]
    rcases call : (Backend.decode locator).run p.backend with ⟨e | image, b, l⟩
    · exact .undecoded call
    · exact .loaded call
  | present => exact runs_present p
  | save name =>
    rw [Op.step, run_save]
    exact .saved
  | restore name =>
    rw [Op.step, run_restore]
    cases known : p.saved? name with
    | none => exact .unsaved known
    | some image => exact .restored known

/-- **A number in the cache is that of a program kept.** -/
def Stored (p : Pipeline β ι π) : Prop :=
  ∀ entry id, p.cached? entry = some id → ∃ k, p.programs.get? id = some k

/-- A program that was asked for is kept. -/
theorem exists_get?_of_built {p p' : Pipeline β ι π} {entry : String} {id : ProgramId}
    (stored : p.Stored) (h : Built p entry (.ok id) p') : ∃ k, p'.programs.get? id = some k := by
  cases h with
  | cached known => exact stored entry id known
  | compiled new text call => exact ⟨_, Programs.get?_insert_new ..⟩

/-- **A pipeline that was created** is blank, and its backend has handed out one image. -/
theorem exists_of_create {b : β} {registry : Registry} {options : Options} {p : Pipeline β ι π}
    (h : (create b registry options).result = .ok p) :
    ∃ image b' l, (Backend.createTarget options.size).run b = ⟨.ok image, b', l⟩ ∧
      p = ⟨b', registry, options, ∅, ∅, image, ∅⟩ := by
  rw [create] at h
  rcases call : (Backend.createTarget options.size).run b with ⟨e | image, b', l⟩
  · rw [call] at h
    cases h
  · rw [call] at h
    exact ⟨image, b', l, rfl, (Except.ok.inj h).symm⟩

/-! ## One operation after another -/

/-- The pipeline that operations leave when each is carried out, whatever became of those before. -/
def after (p : Pipeline β ι π) (ops : List Op) : Pipeline β ι π :=
  ops.foldl (fun p op => (op.step.run p).state) p

@[simp] theorem after_nil (p : Pipeline β ι π) : p.after [] = p := rfl

@[simp] theorem after_cons (p : Pipeline β ι π) (op : Op) (ops : List Op) :
    p.after (op :: ops) = (op.step.run p).state.after ops := rfl

@[simp] theorem after_append (p : Pipeline β ι π) (ops more : List Op) :
    p.after (ops ++ more) = (p.after ops).after more :=
  List.foldl_append

/-- **What every operation keeps, every run keeps.** -/
theorem after_of_step {P : Pipeline β ι π → Prop}
    (step : ∀ (p : Pipeline β ι π) (op : Op), P p → P (op.step.run p).state) {p : Pipeline β ι π}
    (h : P p) (ops : List Op) : P (p.after ops) := by
  induction ops generalizing p with
  | nil => exact h
  | cons op ops ih => exact ih (step p op h)

/-! ## What calls keep -/

/-- Every call to a backend keeps `P`, whatever it answers. -/
structure CallsKeep (P : β → Prop) : Prop where
  compile : ∀ source b, P b → P ((Backend.compile source).run b).state
  createTarget : ∀ size b, P b → P ((Backend.createTarget size).run b).state
  draw : ∀ program input output given b,
    P b → P ((Backend.draw program input output given).run b).state
  decode : ∀ locator b, P b → P ((Backend.decode locator).run b).state

section CallsKeep

variable {P : β → Prop} {p p' : Pipeline β ι π}

private theorem holds_of_outcome {α : Type} {o : Outcome β BackendError α}
    {r : Except BackendError α} {b : β} {l : List Log.Entry} (h : P o.state) (call : o = ⟨r, b, l⟩) :
    P b := by
  rw [call] at h
  exact h

private theorem CallsKeep.built (keep : CallsKeep P) (h : P p.backend) {entry : String}
    {r : Except PipelineError ProgramId} (build : Built p entry r p') : P p'.backend := by
  cases build with
  | cached | ungenerated => exact h
  | refused _ _ call | compiled _ _ call => exact holds_of_outcome (keep.compile _ _ h) call

private theorem CallsKeep.drawn (keep : CallsKeep P) (h : P p.backend) {id : ProgramId}
    {output : Destination ι} {given : Uniforms} {r : Except PipelineError Unit}
    (draw : Drawn p id output given r p') : P p'.backend := by
  cases draw with
  | unknown => exact h
  | called _ call => exact holds_of_outcome (keep.draw _ _ _ _ _ h) call

/-- **What every call keeps, every operation keeps.** -/
theorem CallsKeep.step (keep : CallsKeep P) (h : P p.backend) (op : Op) :
    P (op.step.run p).state.backend := by
  have runs := runs_step op p
  generalize (op.step.run p).result = r at runs
  generalize (op.step.run p).state = p' at runs ⊢
  cases runs with
  | registered | unread | saved | restored | unsaved => exact h
  | unbuilt _ build | built build => exact keep.built h build
  | untargeted build call =>
    exact holds_of_outcome (keep.createTarget _ _ (keep.built h build)) call
  | undrawn build call draw | applied build call draw =>
    have targeted := holds_of_outcome (keep.createTarget _ _ (keep.built h build)) call
    have drawn := keep.drawn targeted draw
    exact drawn
  | presented build draw => exact keep.drawn (keep.built h build) draw
  | loaded call | undecoded call => exact holds_of_outcome (keep.decode _ _ h) call

end CallsKeep

end ShaderLink.Pipeline
