import ShaderLink.Proofs.Pipeline.Stock

/-!
# The courses of an operation

What an operation does is seen in three places: in its answer, in the calls that reach the backend,
and in the pipeline that it leaves. `Op.Course` lists the ways an operation can go by all three, for
a pipeline over any backend: one constructor for each way to succeed and for each point of failure.
`BuildCourse` does this for the program of an entry point.

**The law** (`course_step`): on a pipeline whose cache only has numbers of programs kept, whatever an
operation does is a course on the list, and its calls are those that `callsOf` says. Every pipeline
that was created stays of this kind (`stored_after`).

The list is read off that of `Op.Runs` over a backend that keeps its calls. A call that is made is
then an equation on the calls kept, and a draw by a number that no program has drops out.

**What it does not establish.** A course says nothing of the state in which a backend is left.
-/

set_option autoImplicit false

namespace ShaderLink.Pipeline

variable {β ι π : Type}

/-- The images, the registry and the options are as before. -/
structure Undisturbed (p p' : Pipeline β ι π) : Prop where
  current : p'.current = p.current
  saved : p'.saved = p.saved
  registry : p'.registry = p.registry
  options : p'.options = p.options

/-! ## The courses -/

/-- The courses of asking for the program of an entry point. -/
inductive BuildCourse (p : Pipeline β ι π) (entry : String) :
    Except PipelineError ProgramId → List (Call ι π) → Pipeline β ι π → Prop
  | cached {id : ProgramId} (known : p.cached? entry = some id) : BuildCourse p entry (.ok id) [] p
  | ungenerated {e : BuildError} (new : p.cached? entry = none)
      (text : p.generate entry = .error e) : BuildCourse p entry (.error (.build e)) [] p
  | refused {source : String} {e : BackendError} {b : β} (new : p.cached? entry = none)
      (text : p.generate entry = .ok source) :
      BuildCourse p entry (.error (.backend e)) [.compile source (.error e)]
        { p with backend := b }
  | compiled {source : String} {c : π} {b : β} (new : p.cached? entry = none)
      (text : p.generate entry = .ok source) :
      BuildCourse p entry (.ok (p.programs.insert (keep source c)).2) [.compile source (.ok c)]
        { p with
          backend := b
          programs := (p.programs.insert (keep source c)).1
          cache := p.cache.insert entry (p.programs.insert (keep source c)).2 }

theorem BuildCourse.undisturbed {p p' : Pipeline β ι π} {entry : String}
    {r : Except PipelineError ProgramId} {calls : List (Call ι π)}
    (h : BuildCourse p entry r calls p') : Undisturbed p p' := by
  cases h <;> exact ⟨rfl, rfl, rfl, rfl⟩

theorem BuildCourse.cached?_self {p p' : Pipeline β ι π} {entry : String} {id : ProgramId}
    {calls : List (Call ι π)} (h : BuildCourse p entry (.ok id) calls p') :
    p'.cached? entry = some id := by
  cases h with
  | cached known => exact known
  | compiled new text => exact Std.ExtTreeMap.getElem?_insert_self

theorem BuildCourse.cached?_of_ne {p p' : Pipeline β ι π} {entry other : String}
    {r : Except PipelineError ProgramId} {calls : List (Call ι π)}
    (h : BuildCourse p entry r calls p') (ne : other ≠ entry) :
    p'.cached? other = p.cached? other := by
  cases h with
  | cached | ungenerated | refused => rfl
  | compiled new text => simp [cached?, Std.ExtTreeMap.getElem?_insert, ne.symm]

/-- Building makes no call but to compile, -/
theorem BuildCourse.exists_compile {p p' : Pipeline β ι π} {entry : String}
    {r : Except PipelineError ProgramId} {calls : List (Call ι π)}
    (h : BuildCourse p entry r calls p') :
    ∀ call ∈ calls, ∃ source result, call = .compile source result := by
  cases h <;> simp

/-- so that all draws come behind it. -/
theorem BuildCourse.draw_mem_append {p p' : Pipeline β ι π} {entry : String}
    {r : Except PipelineError ProgramId} {calls more : List (Call ι π)}
    (h : BuildCourse p entry r calls p') {program : π} {input : ι} {output : Destination ι}
    {given : Uniforms} {answer : Except BackendError Unit} :
    .draw program input output given answer ∈ calls ++ more ↔
      .draw program input output given answer ∈ more := by
  rw [List.mem_append, or_iff_right]
  intro made
  obtain ⟨source, result, other⟩ := h.exists_compile _ made
  cases other

variable [Backend β ι π]

theorem Undisturbed.uniformsFor {p p' : Pipeline β ι π} (h : Undisturbed p p') (k : KeptProgram π)
    (given : Uniforms) : p'.uniformsFor k given = p.uniformsFor k given := by
  simp only [Pipeline.uniformsFor, h.current]

/-- **The courses of an operation**: its answer, its calls, and the pipeline that it leaves. -/
inductive Op.Course (p : Pipeline β ι π) :
    Op → Except PipelineError Unit → List (Call ι π) → Pipeline β ι π → Prop
  | registered {source : String} {registry : Registry} {done : Registration}
      (read : p.registry.register source = .ok (registry, done)) :
      Course p (.register source) (.ok ()) [] { p with registry := registry }
  | unread {source : String} {e : BuildError} (read : p.registry.register source = .error e) :
      Course p (.register source) (.error (.build e)) [] p
  | unbuilt {op : Op} {entry : String} {e : PipelineError} {calls : List (Call ι π)}
      {p' : Pipeline β ι π} (asks : op.entry? = some entry)
      (build : BuildCourse p entry (.error e) calls p') : Course p op (.error e) calls p'
  | built {entry : String} {id : ProgramId} {calls : List (Call ι π)} {p' : Pipeline β ι π}
      (build : BuildCourse p entry (.ok id) calls p') : Course p (.program entry) (.ok ()) calls p'
  | untargeted {entry : String} {given : Uniforms} {id : ProgramId} {calls : List (Call ι π)}
      {p' : Pipeline β ι π} {e : BackendError} {b : β}
      (build : BuildCourse p entry (.ok id) calls p') :
      Course p (.apply entry given) (.error (.backend e))
        (calls ++ [.createTarget p.options.size (.error e)]) { p' with backend := b }
  | undrawn {entry : String} {given : Uniforms} {id : ProgramId} {calls : List (Call ι π)}
      {p' : Pipeline β ι π} {target : ι} {k : KeptProgram π} {e : BackendError} {b : β}
      (build : BuildCourse p entry (.ok id) calls p') (known : p'.programs.get? id = some k) :
      Course p (.apply entry given) (.error (.backend e))
        (calls ++ [.createTarget p.options.size (.ok target),
          .draw k.compiled p.current (.image target) (p.uniformsFor k given) (.error e)])
        { p' with backend := b }
  | applied {entry : String} {given : Uniforms} {id : ProgramId} {calls : List (Call ι π)}
      {p' : Pipeline β ι π} {target : ι} {k : KeptProgram π} {b b' : β}
      (build : BuildCourse p entry (.ok id) calls p')
      (handed : ((Backend.createTarget p.options.size).run b').result = .ok target)
      (known : p'.programs.get? id = some k) :
      Course p (.apply entry given) (.ok ())
        (calls ++ [.createTarget p.options.size (.ok target),
          .draw k.compiled p.current (.image target) (p.uniformsFor k given) (.ok ())])
        { p' with backend := b, current := target }
  | presented {id : ProgramId} {calls : List (Call ι π)} {p' : Pipeline β ι π}
      {k : KeptProgram π} {r : Except BackendError Unit} {b : β}
      (build : BuildCourse p "pass" (.ok id) calls p')
      (known : p'.programs.get? id = some k) :
      Course p .present (r.mapError .backend)
        (calls ++ [.draw k.compiled p.current .surface (p.uniformsFor k ∅) r])
        { p' with backend := b }
  | loaded {locator : String} {image : ι} {b : β} :
      Course p (.load locator) (.ok ()) [.decode locator (.ok image)]
        { p with backend := b, current := image }
  | undecoded {locator : String} {e : BackendError} {b : β} :
      Course p (.load locator) (.error (.backend e)) [.decode locator (.error e)]
        { p with backend := b }
  | saved {name : String} :
      Course p (.save name) (.ok ()) [] { p with saved := p.saved.insert name p.current }
  | restored {name : String} {image : ι} (known : p.saved? name = some image) :
      Course p (.restore name) (.ok ()) [] { p with current := image }
  | unsaved {name : String} (missing : p.saved? name = none) :
      Course p (.restore name) (.error (.unknownBuffer name)) [] p

/-! ## Draws -/

/-- The operations that draw, with the entry point whose program they run and the values given. -/
inductive Op.Draws : Op → String → Uniforms → Prop
  | apply (entry : String) (given : Uniforms) : Draws (.apply entry given) entry given
  | present : Draws .present "pass" ∅

theorem Op.Draws.entry?_eq {op : Op} {entry : String} {given : Uniforms} (h : op.Draws entry given) :
    op.entry? = some entry := by
  cases h <;> rfl

/-- **A draw on a course** is by the program that is kept for the entry point then, reads the current
image, and gets the values for that program; it goes to the surface to present, and else to a target
that was handed out for it. -/
theorem Op.Course.draw {p p' : Pipeline β ι π} {op : Op} {r : Except PipelineError Unit}
    {calls : List (Call ι π)} (h : op.Course p r calls p') {program : π} {input : ι}
    {output : Destination ι} {passed : Uniforms} {answer : Except BackendError Unit}
    (made : .draw program input output passed answer ∈ calls) :
    ∃ entry given id k, op.Draws entry given ∧ p'.cached? entry = some id ∧
      p'.programs.get? id = some k ∧ program = k.compiled ∧ input = p.current ∧
      passed = p.uniformsFor k given ∧
      (op = .present ∧ output = .surface ∨
        ∃ entry given target, op = .apply entry given ∧ output = .image target ∧
          .createTarget p.options.size (.ok target) ∈ calls) := by
  cases h with
  | registered | unread | loaded | undecoded | saved | restored | unsaved => simp at made
  | unbuilt asks build | built build =>
    obtain ⟨source, result, other⟩ := build.exists_compile _ made
    cases other
  | untargeted build => simp [build.draw_mem_append] at made
  | undrawn build known | applied build handed known =>
    obtain ⟨rfl, rfl, rfl, rfl, -⟩ := by simpa [build.draw_mem_append] using made
    exact ⟨_, _, _, _, .apply .., build.cached?_self, known, rfl, rfl, rfl, .inr
      ⟨_, _, _, rfl, rfl, by simp⟩⟩
  | presented build known =>
    obtain ⟨rfl, rfl, rfl, rfl, -⟩ := by simpa [build.draw_mem_append] using made
    exact ⟨_, _, _, _, .present, build.cached?_self, known, rfl, rfl, rfl, .inl ⟨rfl, rfl⟩⟩

/-! ## Every operation takes one of its courses -/

variable {p : Pipeline β ι π}

private theorem course_of_built {entry : String} {r : Except PipelineError ProgramId}
    {t : Pipeline (Traced β ι π) ι π} (h : Built p.traced entry r t) :
    BuildCourse p entry r t.backend.calls.toList t.untraced := by
  cases h with
  | cached known => exact .cached known
  | ungenerated new text => exact .ungenerated new text
  | @refused source e b _ new text call =>
    have calls : b.calls.toList = [.compile source (.error e)] := Traced.calls_of_keeping call
    simp only [calls]
    exact .refused new text
  | @compiled source c b _ new text call =>
    have calls : b.calls.toList = [.compile source (.ok c)] := Traced.calls_of_keeping call
    simp only [calls]
    exact .compiled new text

/-- A draw by the number of a program kept is one more call. -/
private theorem calls_of_drawn {t t' : Pipeline (Traced β ι π) ι π} {id : ProgramId}
    {output : Destination ι} {given : Uniforms} {r : Except PipelineError Unit}
    (h : Drawn t id output given r t') {k : KeptProgram π} (known : t.programs.get? id = some k) :
    ∃ answer b, r = Except.mapError .backend answer ∧ t' = { t with backend := b } ∧
      b.calls.toList = t.backend.calls.toList ++
        [.draw k.compiled t.current output (t.uniformsFor k given) answer] := by
  cases h with
  | unknown missing =>
    rw [known] at missing
    cases missing
  | @called k' answer b l known' call =>
    obtain rfl : k = k' := Option.some.inj (known.symm.trans known')
    exact ⟨answer, b, rfl, rfl, Traced.calls_of_keeping call⟩

/-- The program, the target and the draw of a run over the current image. -/
private theorem course_of_target (stored : p.Stored) {entry : String} {given : Uniforms}
    {id : ProgramId} {t t' : Pipeline (Traced β ι π) ι π} {target : ι} {b : Traced β ι π}
    {l : List Log.Entry} {r : Except PipelineError Unit} (build : Built p.traced entry (.ok id) t)
    (call : (Backend.createTarget t.options.size).run t.backend = ⟨.ok target, b, l⟩)
    (draw : Drawn { t with backend := b } id (.image target) given r t') :
    ∃ k answer b', r = Except.mapError .backend answer ∧ t' = { t with backend := b' } ∧
      ((Backend.createTarget p.options.size).run t.backend.backend).result = .ok target ∧
      t.programs.get? id = some k ∧ b'.calls.toList = t.backend.calls.toList ++
        [.createTarget p.options.size (.ok target),
          .draw k.compiled p.current (.image target) (p.uniformsFor k given) answer] := by
  have same : Undisturbed p t.untraced := (course_of_built build).undisturbed
  have options : t.options = p.options := same.options
  have current : t.current = p.current := same.current
  obtain ⟨k, known⟩ := exists_get?_of_built (p := p.traced) stored build
  have uniforms : Pipeline.uniformsFor { t with backend := b } k given = p.uniformsFor k given :=
    same.uniformsFor k given
  obtain ⟨answer, b', rfl, rfl, calls⟩ := calls_of_drawn draw known
  refine ⟨k, answer, b', rfl, rfl, ?_, known, ?_⟩
  · rw [Traced.isView_backend.createTarget, ← options, call]
    rfl
  rw [calls, uniforms, Traced.calls_of_keeping call, options, current, List.append_assoc]
  rfl

private theorem course_of_runs (stored : p.Stored) {op : Op} {r : Except PipelineError Unit}
    {t : Pipeline (Traced β ι π) ι π} (h : op.Runs p.traced r t) :
    op.Course p r t.backend.calls.toList t.untraced := by
  cases h with
  | registered read => exact .registered read
  | unread read => exact .unread read
  | unbuilt asks build => exact .unbuilt asks (course_of_built build)
  | built build => exact .built (course_of_built build)
  | @untargeted entry given id t e b _ build call =>
    have options : t.options = p.options := (course_of_built build).undisturbed.options
    have calls : b.calls.toList =
        t.backend.calls.toList ++ [.createTarget p.options.size (.error e)] := by
      rw [Traced.calls_of_keeping call, options]
    simp only [calls]
    exact .untargeted (course_of_built build)
  | undrawn build call draw =>
    obtain ⟨k, answer, b', failed, rfl, -, known, calls⟩ := course_of_target stored build call draw
    cases answer with
    | ok u => cases failed
    | error e =>
      cases failed
      simp only [calls]
      exact .undrawn (course_of_built build) known
  | applied build call draw =>
    obtain ⟨k, answer, b', succeeded, rfl, handed, known, calls⟩ :=
      course_of_target stored build call draw
    cases answer with
    | error e => cases succeeded
    | ok u =>
      simp only [calls]
      exact .applied (course_of_built build) handed known
  | @presented id t _ _ build draw =>
    have same : Undisturbed p t.untraced := (course_of_built build).undisturbed
    have current : t.current = p.current := same.current
    have uniforms (k : KeptProgram π) : t.uniformsFor k ∅ = p.uniformsFor k ∅ :=
      same.uniformsFor k ∅
    obtain ⟨k, known⟩ := exists_get?_of_built (p := p.traced) stored build
    obtain ⟨answer, b', rfl, rfl, calls⟩ := calls_of_drawn draw known
    rw [current, uniforms] at calls
    simp only [calls]
    exact .presented (course_of_built build) known
  | @loaded locator image b _ call =>
    have calls : b.calls.toList = [.decode locator (.ok image)] := Traced.calls_of_keeping call
    simp only [calls]
    exact .loaded
  | @undecoded locator e b _ call =>
    have calls : b.calls.toList = [.decode locator (.error e)] := Traced.calls_of_keeping call
    simp only [calls]
    exact .undecoded
  | saved => exact .saved
  | restored known => exact .restored known
  | unsaved missing => exact .unsaved missing

/-- **Every operation takes a course on the list.** -/
theorem course_step (stored : p.Stored) (op : Op) :
    op.Course p (op.step.run p).result (p.callsOf op) (op.step.run p).state := by
  have same := run_step_untraced op p.traced
  rw [untraced_traced] at same
  rw [same]
  exact course_of_runs stored (runs_step op p.traced)

/-! ## Caches without dangling numbers -/

private theorem state_eq_untraced (p : Pipeline β ι π) (op : Op) :
    (op.step.run p).state = (op.step.run p.traced).state.untraced :=
  congrArg Outcome.state (run_step_untraced op p.traced)

/-- **What is cached stays cached**, and its program is the same. -/
theorem kept_step (stored : p.Stored) (op : Op) {entry : String} {id : ProgramId}
    (known : p.cached? entry = some id) :
    (op.step.run p).state.cached? entry = some id ∧
      (op.step.run p).state.programs.get? id = p.programs.get? id := by
  have stocked := stocked_step p.traced op
  obtain ⟨k, kept⟩ := stored entry id known
  rw [state_eq_untraced, kept]
  exact ⟨stocked.cached known, stocked.get? kept⟩

/-- An operation makes no number dangle. -/
theorem stored_step (stored : p.Stored) (op : Op) : (op.step.run p).state.Stored := by
  rw [state_eq_untraced]
  intro entry id known
  exact (stocked_step p.traced op).exists_get? stored known

/-- A run makes no number dangle. -/
theorem stored_after (stored : p.Stored) (ops : List Op) : (p.after ops).Stored :=
  after_of_step (P := Stored) (fun _ op stored => stored_step stored op) stored ops

theorem stored_of_create {b : β} {registry : Registry} {options : Options}
    (h : (create b registry options).result = .ok p) : p.Stored := by
  obtain ⟨image, b', l, call, rfl⟩ := exists_of_create h
  intro entry id known
  simp [cached?] at known

/-! ## Saved images -/

/-- **Only saving changes what is saved.** -/
theorem saved_step (stored : p.Stored) {op : Op} (other : ∀ name, op ≠ .save name) :
    (op.step.run p).state.saved = p.saved := by
  have course := course_step stored op
  generalize (op.step.run p).result = r at course
  generalize p.callsOf op = calls at course
  generalize (op.step.run p).state = p' at course ⊢
  cases course with
  | registered | unread | loaded | undecoded | restored | unsaved => rfl
  | saved => exact absurd rfl (other _)
  | unbuilt _ build | built build | untargeted build | undrawn build | applied build
  | presented build => exact build.undisturbed.saved

/-! ## Options -/

private theorem options_of_course {p' : Pipeline β ι π} {op : Op} {r : Except PipelineError Unit}
    {calls : List (Call ι π)} (h : op.Course p r calls p') : p'.options = p.options := by
  cases h with
  | registered | unread | loaded | undecoded | saved | restored | unsaved => rfl
  | unbuilt _ build | built build | untargeted build | undrawn build | applied build
  | presented build => exact build.undisturbed.options

/-- The options stay as they were told. -/
theorem options_after (stored : p.Stored) (ops : List Op) : (p.after ops).options = p.options := by
  induction ops generalizing p with
  | nil => rfl
  | cons op ops ih =>
    rw [after_cons, ih (stored_step stored op), options_of_course (course_step stored op)]

end ShaderLink.Pipeline
