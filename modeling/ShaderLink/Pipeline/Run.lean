import ShaderLink.Pipeline.Recorder

/-!
# What running an operation does

One equation for each operation of a pipeline: its answer, the state it leaves and the lines it
logs, said without jobs. Statements on whole runs rest on these equations and never unfold an
operation.

**The laws** (`run_program`, `run_apply`): building comes before anything that is done with a
program, and what fails first is what is answered. `run_submit` says that a batch starts on an empty
record.
-/

set_option autoImplicit false

namespace ShaderLink.Pipeline

variable {β ι π α : Type}

/-! ## Parts of operations -/

theorem mapError_ok {δ ε : Type} (f : δ → ε) (a : α) :
    (Except.ok a).mapError f = .ok a := rfl

theorem mapError_error {δ ε : Type} (f : δ → ε) (e : δ) :
    (Except.error e : Except δ α).mapError f = .error (f e) := rfl

/-- A backend's job moves the backend and nothing else. -/
@[simp] theorem run_onBackend (j : Job β BackendError α) (p : Pipeline β ι π) :
    (onBackend j : Step β ι π α).run p =
      ⟨(j.run p.backend).result.mapError .backend, { p with backend := (j.run p.backend).state },
        (j.run p.backend).log⟩ := by
  simp [onBackend, backendPart]

/-- A result of building moves nothing. -/
@[simp] theorem run_ofBuild (x : Except BuildError α) (p : Pipeline β ι π) :
    (ofBuild x : Step β ι π α).run p = ⟨x.mapError .build, p, []⟩ := by
  simp [ofBuild]

/-! ## Operations without the backend -/

theorem run_register_ok {source : String} {p : Pipeline β ι π} {r : Registry} {d : Registration}
    (h : p.registry.register source = .ok (r, d)) :
    (register source).run p = ⟨.ok d.name, { p with registry := r }, [d.logLine]⟩ := by
  simp [register, h, Except.map, mapError_ok, Outcome.after]

theorem run_register_error {source : String} {p : Pipeline β ι π} {e : BuildError}
    (h : p.registry.register source = .error e) :
    (register source).run p = ⟨.error (.build e), p, []⟩ := by
  simp [register, h, mapError_error, Outcome.after]

theorem run_save (name : String) (p : Pipeline β ι π) :
    (save name).run p =
      ⟨.ok (), { p with saved := p.saved.insert name p.current },
        [⟨.debug, "saving buffer `" ++ name ++ "`"⟩]⟩ := by
  simp [save, Outcome.after]

theorem run_restore (name : String) (p : Pipeline β ι π) :
    (restore name).run p =
      match p.saved? name with
      | none => ⟨.error (.unknownBuffer name), p, []⟩
      | some image =>
        ⟨.ok (), { p with current := image }, [⟨.debug, "loading buffer `" ++ name ++ "`"⟩]⟩ := by
  cases h : p.saved? name <;> simp [restore, h, Outcome.after]

/-! ## Submitting -/

namespace Recorder

/-- Submitting nothing does nothing. -/
theorem run_submit_of_isEmpty {r : Recorder β ι π} (h : r.queue.isEmpty = true) :
    submit.run r = ⟨.ok (), r, []⟩ := by
  simp [submit, h, Outcome.after]

/-- **A batch runs on the pipeline as it is**, and whatever comes of it the record is empty. -/
theorem run_submit {r : Recorder β ι π} (h : r.queue.isEmpty = false) :
    submit.run r =
      let o := r.queue.drain.2.run r.pipeline
      ⟨o.result, ⟨o.state, .empty⟩,
        ⟨.debug, "submitting " ++ toString r.pending ++ " pipeline commands"⟩ :: o.log⟩ := by
  have hid : ∀ x : Except PipelineError Unit, x.mapError id = x := by intro x; cases x <;> rfl
  simp [submit, h, Queue.drain, pipelinePart, hid, Outcome.after]

end Recorder

variable [Backend β ι π]

/-! ## Operations on the backend -/

/-- The lines logged before the program of an entry point is compiled. -/
def compileLog (entry source : String) : List Log.Entry :=
  [⟨.debug, "compiling program `" ++ entry ++ "`"⟩,
    ⟨.trace, "program `" ++ entry ++ "` source:\n" ++ Text.listing source⟩]

theorem run_compile_error {entry : String} {p : Pipeline β ι π} {e : BuildError}
    (h : p.generate entry = .error e) : (compile entry).run p = ⟨.error (.build e), p, []⟩ := by
  simp [compile, h, mapError_error, Outcome.after]

/-- A program that can be generated is handed to the backend, and kept if it compiles. -/
theorem run_compile_ok {entry source : String} {p : Pipeline β ι π}
    (h : p.generate entry = .ok source) :
    (compile entry).run p =
      let o := (Backend.compile source).run p.backend
      let p' := { p with backend := o.state }
      match o.result with
      | .error e => ⟨.error (.backend e), p', compileLog entry source ++ o.log⟩
      | .ok compiled =>
        let kept := p.programs.insert (keep source compiled)
        ⟨.ok kept.2, { p' with programs := kept.1, cache := p.cache.insert entry kept.2 },
          compileLog entry source ++ o.log⟩ := by
  rcases ho : (Backend.compile source).run p.backend with ⟨e | c, s, l⟩ <;>
    simp [compile, h, ho, compileLog, Except.map, mapError_ok, mapError_error, Outcome.after]

/-- The number of a program that is built is answered; one that is not is compiled. -/
theorem run_program (entry : String) (p : Pipeline β ι π) :
    (program entry).run p =
      match p.cached? entry with
      | some id => ⟨.ok id, p, [⟨.trace, "program `" ++ entry ++ "` served from cache"⟩]⟩
      | none => (compile entry).run p := by
  cases h : p.cached? entry <;> simp [program, h, Except.map, Outcome.after]

/-- A program is found by its number and run; a number that none has is the end of it. -/
theorem run_draw (id : ProgramId) (output : Destination ι) (given : Uniforms)
    (p : Pipeline β ι π) :
    (draw id output given).run p =
      match p.programs.get? id with
      | none => ⟨.error (.unknownProgram id.number), p, []⟩
      | some k =>
        (onBackend (Backend.draw k.compiled p.current output (p.uniformsFor k given))).run p := by
  cases h : p.programs.get? id <;> simp [draw, h, Outcome.after]

/-- The entry point's program comes first, then the target, then the draw; only after the draw is
the target the current image. -/
theorem run_apply (entry : String) (given : Uniforms) (p : Pipeline β ι π) :
    (apply entry given).run p =
      ((program entry).run p).andThen fun id p =>
        ((onBackend (Backend.createTarget p.options.size)).run p).andThen fun target p =>
          ((draw id (.image target) given).run p).andThen fun _ p =>
            ⟨.ok (), { p with current := target }, []⟩ := by
  rw [apply, Job.run_bind]
  refine congrArg _ (funext fun id => funext fun p => ?_)
  rw [Job.run_bind, Job.run_get, Outcome.andThen_ok, Outcome.after_nil, Job.run_bind]
  refine congrArg _ (funext fun target => funext fun p => ?_)
  rw [Job.run_bind]
  rfl

theorem run_load (locator : String) (p : Pipeline β ι π) :
    (load locator).run p =
      let o := (Backend.decode locator).run p.backend
      let p' := { p with backend := o.state }
      let log := ⟨.debug, "loading image `" ++ locator ++ "`"⟩ :: o.log
      match o.result with
      | .error e => ⟨.error (.backend e), p', log⟩
      | .ok image => ⟨.ok (), { p' with current := image }, log⟩ := by
  rcases ho : (Backend.decode locator).run p.backend with ⟨e | i, s, l⟩ <;>
    simp [load, ho, mapError_ok, mapError_error, Outcome.after]

theorem run_present (p : Pipeline β ι π) :
    present.run p =
      ((program "pass").run p).andThen fun id => (draw id .surface ∅).run := by
  simp [present, Builtin.passEntry]

end ShaderLink.Pipeline
