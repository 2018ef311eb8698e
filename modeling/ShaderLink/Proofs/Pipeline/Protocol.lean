import ShaderLink.Proofs.Pipeline.Cache
import ShaderLink.Proofs.Pipeline.CarriedOut
import ShaderLink.Proofs.Pipeline.Course

/-!
# The order of calls to the backend

An operation that asks for a program comes to the backend in up to three stages. It has the program
compiled if that was not done before, it is handed a target if it runs over the current image, and it
draws. Each stage is one call, and comes only if the one before it was passed.

**The law** (`callLaws_of_create`): after every session the calls of such an operation are those of its
stages (`Staged`) and no others, in this order, and none follows one that failed. The operation succeeds
exactly if no stage failed, which for one that draws is that the draw succeeded; otherwise its error is
that of the first stage that failed (`firstError?`). If there is no text to compile, nothing is called.

The stages are read off the courses of an operation (`exists_staged_of_course`), and so is the first
error (`firstError?_of_course`).

**What it does not establish.** By which program a draw is and which values it gets is not said here,
nor what a failure leaves, nor anything of the operations that ask for no program.
-/

set_option autoImplicit false

namespace ShaderLink

variable {β ι π : Type}

/-- The error that a call returned. -/
def Call.failure? : Call ι π → Option BackendError
  | .compile _ (.error e) | .createTarget _ (.error e) | .draw _ _ _ _ (.error e)
  | .decode _ (.error e) => some e
  | .compile _ (.ok _) | .createTarget _ (.ok _) | .draw _ _ _ _ (.ok _) | .decode _ (.ok _) => none

namespace Pipeline

/-! ## Stages -/

/-- **The call of compiling** for an entry point: it comes exactly if the entry point is not cached and
has a text, and it is for that text. -/
structure Compiling (p : Pipeline β ι π) (entry : String) (compile? : Option (Call ι π)) : Prop where
  compile_iff : compile?.isSome ↔ p.cached? entry = none ∧ ∃ source, p.generate entry = .ok source
  compile_eq : ∀ call, compile? = some call →
    ∃ source result, p.generate entry = .ok source ∧ call = .compile source result

/-- The program of an entry point is there: it was cached, or it has been compiled. -/
def Ready (p : Pipeline β ι π) (entry : String) (compile? : Option (Call ι π)) : Prop :=
  p.cached? entry ≠ none ∨ ∃ source c, compile? = some (.compile source (.ok c))

/-- Where an operation draws behind these calls: a run over the current image into the target that it
was handed, and presenting to the surface once its program is there. -/
inductive Op.Goes (p : Pipeline β ι π) (entry : String) (compile? allocate? : Option (Call ι π)) :
    Op → Destination ι → Prop
  | apply {given : Uniforms} {size : Size} {target : ι}
      (handed : allocate? = some (.createTarget size (.ok target))) :
      Goes p entry compile? allocate? (.apply entry given) (.image target)
  | present (ready : p.Ready entry compile?) : Goes p entry compile? allocate? .present .surface

/-- **The calls of an operation by their stages**: at most one to compile, one for a target, one to draw.
A target is asked for exactly by a run over the current image whose program is there, and it is to have
the size that the pipeline was told. A draw comes exactly if there is a place for it, and it goes
there. -/
structure Staged (p : Pipeline β ι π) (op : Op) (entry : String)
    (compile? allocate? draw? : Option (Call ι π)) : Prop extends Compiling p entry compile? where
  allocate_iff : allocate?.isSome ↔ (∃ given, op = .apply entry given) ∧ p.Ready entry compile?
  allocate_eq : ∀ call, allocate? = some call → ∃ result, call = .createTarget p.options.size result
  draw_iff : draw?.isSome ↔ ∃ output, op.Goes p entry compile? allocate? output
  draw_eq : ∀ call, draw? = some call → ∃ program output passed result,
    op.Goes p entry compile? allocate? output ∧ call = .draw program p.current output passed result

/-- The error of the first stage that fails when these calls are made: that of the text if there is
none to compile, else that of the first call that fails. -/
def firstError? (p : Pipeline β ι π) (entry : String) (calls : List (Call ι π)) :
    Option PipelineError :=
  match p.cached? entry, p.generate entry with
  | none, .error cause => some (.build cause)
  | _, _ => (calls.findSome? Call.failure?).map .backend

variable {p p' : Pipeline β ι π} {op : Op} {entry : String} {calls : List (Call ι π)}

/-! ## The stage of the program -/

theorem compiling_of_cached {id : ProgramId} (known : p.cached? entry = some id) :
    Compiling p entry none where
  compile_iff := by simp [known]
  compile_eq := nofun

theorem compiling_of_text {source : String} (new : p.cached? entry = none)
    (text : p.generate entry = .ok source) (result : Except BackendError π) :
    Compiling p entry (some (.compile source result)) where
  compile_iff := by simp [new, text]
  compile_eq call h := ⟨source, result, text, (Option.some.inj h).symm⟩

theorem compiling_of_error {e : BuildError} (text : p.generate entry = .error e) :
    Compiling p entry none where
  compile_iff := by simp [text]
  compile_eq := nofun

/-- A program that is there was cached or is compiled now, -/
theorem BuildCourse.exists_ready {id : ProgramId} (h : BuildCourse p entry (.ok id) calls p') :
    ∃ compile?, calls = compile?.toList ∧ Compiling p entry compile? ∧ p.Ready entry compile? := by
  cases h with
  | cached known => exact ⟨none, rfl, compiling_of_cached known, .inl (by simp [known])⟩
  | @compiled source c b new text =>
    exact ⟨some (.compile source (.ok c)), rfl, compiling_of_text new text _, .inr ⟨_, _, rfl⟩⟩

/-- and no call has failed, -/
theorem BuildCourse.passed {id : ProgramId} (h : BuildCourse p entry (.ok id) calls p') :
    ∀ call ∈ calls, call.failure? = none := by
  cases h <;> simp [Call.failure?]

/-- so that the first error is that of the calls behind. -/
theorem BuildCourse.firstError?_append {id : ProgramId} (h : BuildCourse p entry (.ok id) calls p')
    (more : List (Call ι π)) :
    p.firstError? entry (calls ++ more) = (more.findSome? Call.failure?).map .backend := by
  have passed : (calls ++ more).findSome? Call.failure? = more.findSome? Call.failure? := by
    rw [List.findSome?_append, List.findSome?_eq_none_iff.2 h.passed, Option.none_or]
  rw [← passed]
  cases h with
  | cached known => simp only [firstError?, known]
  | compiled new text => simp only [firstError?, new, text]

/-- Without a program there is an error: there is no text, or the call failed. -/
theorem BuildCourse.exists_not_ready {e : PipelineError} (h : BuildCourse p entry (.error e) calls p') :
    ∃ compile?, calls = compile?.toList ∧ Compiling p entry compile? ∧ ¬ p.Ready entry compile? ∧
      p.firstError? entry calls = some e := by
  cases h with
  | ungenerated new text =>
    exact ⟨none, rfl, compiling_of_error text, by simp [Ready, new], by simp [firstError?, new, text]⟩
  | @refused source e b new text =>
    exact ⟨some (.compile source (.error e)), rfl, compiling_of_text new text _, by simp [Ready, new],
      by simp [firstError?, new, text, Call.failure?]⟩

/-! ## All stages -/

/-- An operation whose program is not there makes no call behind that of compiling. -/
private theorem staged_of_unbuilt {compile? : Option (Call ι π)}
    (compiling : Compiling p entry compile?) (missing : ¬ p.Ready entry compile?) :
    Staged p op entry compile? none none where
  toCompiling := compiling
  allocate_iff := by simp [missing]
  allocate_eq := nofun
  draw_iff := by
    refine iff_of_false Bool.false_ne_true ?_
    rintro ⟨output, ⟨⟨⟩⟩ | ready⟩
    exact missing ready
  draw_eq := nofun

/-- Asking for a program makes no call behind that of compiling. -/
private theorem staged_of_program {compile? : Option (Call ι π)}
    (compiling : Compiling p entry compile?) : Staged p (.program entry) entry compile? none none where
  toCompiling := compiling
  allocate_iff := by simp
  allocate_eq := nofun
  draw_iff := by
    refine iff_of_false Bool.false_ne_true ?_
    rintro ⟨output, ⟨⟩⟩
  draw_eq := nofun

/-- A run over the current image that is refused its target does not draw. -/
private theorem staged_of_untargeted {compile? : Option (Call ι π)} {given : Uniforms}
    {e : BackendError} (compiling : Compiling p entry compile?) (ready : p.Ready entry compile?) :
    Staged p (.apply entry given) entry compile?
      (some (.createTarget p.options.size (.error e))) none where
  toCompiling := compiling
  allocate_iff := by simp [ready]
  allocate_eq call h := ⟨_, (Option.some.inj h).symm⟩
  draw_iff := by
    refine iff_of_false Bool.false_ne_true ?_
    rintro ⟨output, ⟨⟨⟩⟩⟩
  draw_eq := nofun

/-- One that is handed a target draws into it. -/
private theorem staged_of_targeted {compile? : Option (Call ι π)} {given passed : Uniforms}
    {target : ι} {program : π} {result : Except BackendError Unit}
    (compiling : Compiling p entry compile?) (ready : p.Ready entry compile?) :
    Staged p (.apply entry given) entry compile? (some (.createTarget p.options.size (.ok target)))
      (some (.draw program p.current (.image target) passed result)) where
  toCompiling := compiling
  allocate_iff := by simp [ready]
  allocate_eq call h := ⟨_, (Option.some.inj h).symm⟩
  draw_iff := iff_of_true rfl ⟨.image target, .apply rfl⟩
  draw_eq call h := ⟨program, _, passed, result, .apply rfl, (Option.some.inj h).symm⟩

/-- Presenting draws to the surface once the program is there. -/
private theorem staged_of_presented {compile? : Option (Call ι π)} {passed : Uniforms} {program : π}
    {result : Except BackendError Unit} (compiling : Compiling p "pass" compile?)
    (ready : p.Ready "pass" compile?) :
    Staged p .present "pass" compile? none
      (some (.draw program p.current .surface passed result)) where
  toCompiling := compiling
  allocate_iff := by simp
  allocate_eq := nofun
  draw_iff := iff_of_true rfl ⟨.surface, .present ready⟩
  draw_eq call h := ⟨program, _, passed, result, .present ready, (Option.some.inj h).symm⟩

/-- Without a text to compile no stage comes. -/
theorem Staged.quiet {compile? allocate? draw? : Option (Call ι π)}
    (h : Staged p op entry compile? allocate? draw?) (new : p.cached? entry = none) {e : BuildError}
    (text : p.generate entry = .error e) : compile? = none ∧ allocate? = none ∧ draw? = none := by
  obtain rfl : compile? = none := by
    rw [← Option.not_isSome_iff_eq_none, h.compile_iff, text]
    rintro ⟨-, source, ⟨⟩⟩
  have missing : ¬ p.Ready entry (none : Option (Call ι π)) := by simp [Ready, new]
  obtain rfl : allocate? = none := by
    rw [← Option.not_isSome_iff_eq_none, h.allocate_iff]
    exact fun due => missing due.2
  refine ⟨rfl, rfl, ?_⟩
  rw [← Option.not_isSome_iff_eq_none, h.draw_iff]
  rintro ⟨output, ⟨⟨⟩⟩ | ready⟩
  exact missing ready

variable [Backend β ι π]

/-- **Every course goes by stages.** -/
theorem exists_staged_of_course {r : Except PipelineError Unit} (h : op.Course p r calls p')
    (asks : op.entry? = some entry) :
    ∃ compile? allocate? draw?, Staged p op entry compile? allocate? draw? ∧
      calls = compile?.toList ++ (allocate?.toList ++ draw?.toList) := by
  cases h with
  | registered | unread | loaded | undecoded | saved | restored | unsaved => cases asks
  | unbuilt asks' build =>
    obtain rfl := Option.some.inj (asks.symm.trans asks')
    obtain ⟨compile?, rfl, compiling, missing, -⟩ := build.exists_not_ready
    exact ⟨_, _, _, staged_of_unbuilt compiling missing, by simp⟩
  | built build =>
    obtain rfl := Option.some.inj asks
    obtain ⟨compile?, rfl, compiling, -⟩ := build.exists_ready
    exact ⟨_, _, _, staged_of_program compiling, by simp⟩
  | untargeted build =>
    obtain rfl := Option.some.inj asks
    obtain ⟨compile?, rfl, compiling, ready⟩ := build.exists_ready
    exact ⟨_, _, _, staged_of_untargeted compiling ready, rfl⟩
  | undrawn build | applied build =>
    obtain rfl := Option.some.inj asks
    obtain ⟨compile?, rfl, compiling, ready⟩ := build.exists_ready
    exact ⟨_, _, _, staged_of_targeted compiling ready, rfl⟩
  | presented build =>
    obtain rfl := Option.some.inj asks
    obtain ⟨compile?, rfl, compiling, ready⟩ := build.exists_ready
    exact ⟨_, _, _, staged_of_presented compiling ready, rfl⟩

/-- **No call follows one that failed**, and the error of a course is the first. -/
theorem firstError?_of_course {r : Except PipelineError Unit} (h : op.Course p r calls p')
    (asks : op.entry? = some entry) :
    (∀ call ∈ calls.dropLast, call.failure? = none) ∧
      ∀ e, r = .error e ↔ p.firstError? entry calls = some e := by
  cases h with
  | registered | unread | loaded | undecoded | saved | restored | unsaved => cases asks
  | unbuilt asks' build =>
    obtain rfl := Option.some.inj (asks.symm.trans asks')
    obtain ⟨compile?, rfl, -, -, error⟩ := build.exists_not_ready
    exact ⟨by cases compile? <;> simp, fun e => by simp [error]⟩
  | built build =>
    obtain rfl := Option.some.inj asks
    have error := build.firstError?_append []
    rw [List.append_nil] at error
    refine ⟨fun call made => build.passed call (List.dropLast_subset _ made), fun e => ?_⟩
    simp [error]
  | @untargeted _ _ _ _ _ cause _ build =>
    obtain rfl := Option.some.inj asks
    rw [List.dropLast_concat, build.firstError?_append]
    exact ⟨build.passed, fun e => by simp [Call.failure?]⟩
  | undrawn build | applied build =>
    obtain rfl := Option.some.inj asks
    rw [List.dropLast_append_of_ne_nil (by simp), build.firstError?_append]
    refine ⟨List.forall_mem_append.2 ⟨build.passed, List.forall_mem_singleton.2 rfl⟩, fun e => ?_⟩
    simp [List.findSome?_cons, Call.failure?]
  | @presented _ _ _ _ answer _ build =>
    obtain rfl := Option.some.inj asks
    rw [List.dropLast_concat, build.firstError?_append]
    refine ⟨build.passed, fun e => ?_⟩
    cases answer <;> simp [Call.failure?, Except.mapError]

/-- An operation that draws succeeds exactly if its draw does. -/
theorem drawn_iff_of_course {r : Except PipelineError Unit} (h : op.Course p r calls p')
    {given : Uniforms} (draws : op.Draws entry given) :
    r = .ok () ↔ ∃ program input output passed, .draw program input output passed (.ok ()) ∈ calls := by
  cases h with
  | registered | unread | loaded | undecoded | saved | restored | unsaved | built => cases draws
  | unbuilt asks build =>
    refine iff_of_false nofun ?_
    rintro ⟨program, input, output, passed, made⟩
    obtain ⟨source, result, other⟩ := build.exists_compile _ made
    cases other
  | untargeted build => simp [build.draw_mem_append]
  | undrawn build => simp [build.draw_mem_append]
  | applied build => simp [build.draw_mem_append]
  | @presented _ _ _ _ answer _ build =>
    cases answer <;> simp [build.draw_mem_append, Except.mapError]

/-! ## The law -/

/-- **What holds of the calls of `op`**, which asks for the program of `entry`, on the pipeline `p`. -/
structure CallLaws (p : Pipeline β ι π) (op : Op) (entry : String) : Prop where
  /-- The calls are those of the stages, in this order, and no others. -/
  staged : ∃ compile? allocate? draw?, Staged p op entry compile? allocate? draw? ∧
    p.callsOf op = compile?.toList ++ (allocate?.toList ++ draw?.toList)
  /-- No call follows one that failed: only the last can fail. -/
  last : ∀ call ∈ (p.callsOf op).dropLast, call.failure? = none
  /-- The operation fails exactly with the error of the first stage that fails. -/
  error : ∀ e, (op.step.run p).result = .error e ↔ p.firstError? entry (p.callsOf op) = some e
  /-- If it draws, it succeeds exactly if the draw does. -/
  drawn : ∀ given, op.Draws entry given → ((op.step.run p).result = .ok () ↔
    ∃ program input output passed, .draw program input output passed (.ok ()) ∈ p.callsOf op)
  /-- If linking fails or the type of the entry point does not become a color, nothing is called. -/
  quiet : p.cached? entry = none → ∀ cause, p.generate entry = .error cause →
    p.callsOf op = [] ∧ (op.step.run p).result = .error (.build cause)

private theorem callLaws_of_stored (stored : p.Stored) (asks : op.entry? = some entry) :
    CallLaws p op entry := by
  have course := course_step stored op
  obtain ⟨compile?, allocate?, draw?, staged, made⟩ := exists_staged_of_course course asks
  obtain ⟨last, error⟩ := firstError?_of_course course asks
  refine ⟨⟨_, _, _, staged, made⟩, last, error, fun given => drawn_iff_of_course course, ?_⟩
  intro new cause text
  obtain ⟨rfl, rfl, rfl⟩ := staged.quiet new text
  refine ⟨made, (error _).2 ?_⟩
  simp only [firstError?, new, text]

/-- **The backend is called stage by stage** by every operation that asks for a program, in any state
that a session comes to and whatever the backend answers. -/
theorem callLaws_of_create {b : β} {registry : Registry} {options : Options}
    (h : (create b registry options).result = .ok p) (script : List Action) (op : Op) (entry : String)
    (asks : op.entry? = some entry) :
    CallLaws ((Front.direct p).after script).pipeline op entry := by
  rw [pipeline_after]
  exact callLaws_of_stored (stored_after (stored_of_create h) _) asks

/-- A run over the current image that is refused its target behind a compilation, in a session that has
deferred a registration. -/
theorem callLaws_opening :
    let p := ((Front.direct opening).after
      [.defer, .op (.register "export vec4 a()"), .submit, .release]).pipeline
    (create rehearsal .empty ⟨⟨4, 4⟩, .medium⟩).result = .ok opening ∧
      Op.entry? (.apply "a" ∅) = some "a" ∧
      p.firstError? "a" (p.callsOf (.apply "a" ∅)) = some (.backend (.allocate "target 2")) ∧
      CallLaws p (.apply "a" ∅) "a" := by
  have h : (create rehearsal .empty ⟨⟨4, 4⟩, .medium⟩).result = .ok opening := rfl
  intro p
  exact ⟨h, rfl, by decide +kernel, callLaws_of_create h _ (.apply "a" ∅) "a" rfl⟩

end Pipeline

end ShaderLink
