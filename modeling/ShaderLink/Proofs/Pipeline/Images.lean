import ShaderLink.Proofs.Pipeline.Cache
import ShaderLink.Proofs.Pipeline.Course

/-!
# Where images come from

A pipeline has one current image. Runs over it, loads and restores put another in its place; nothing
else does, and no operation that fails. `produced?` is the image that an operation puts there, read
off its calls, and `lastImage` the one that a run of operations put there last.

**The law** (`imageLaws_of_create`): after every run the current image is the one produced last.
Every draw that the backend receives reads the image that is current then, by the program that is
cached for the entry point of its operation, and goes to the surface or to a target that the same
operation was handed. So a run over the current image that succeeds reads what the last operation to
produce an image has produced, and leaves an image of the size that the pipeline was told.

One operation is settled by its courses (`current_step`, `drawnBy_step`, `applied_step`), a run by
induction over its operations (`current_after`, `exists_mem_callsOf`).

**What it does not establish.** That a target has the size asked for is the backend's part
(`Backend.TargetsSized`). Images are handles here: what a draw makes of them is not told.
-/

set_option autoImplicit false

namespace ShaderLink

variable {β ι π : Type}

/-- The image that a call hands out to draw into. -/
def Call.target? : Call ι π → Option ι
  | .createTarget _ result => result.toOption
  | .compile .. | .draw .. | .decode .. => none

/-- The image that a call turns a resource into. -/
def Call.decoded? : Call ι π → Option ι
  | .decode _ result => result.toOption
  | .compile .. | .createTarget .. | .draw .. => none

/-- Every target that is handed out has the size that was asked for. -/
def Backend.TargetsSized (β : Type) {ι π : Type} [Backend β ι π] : Prop :=
  ∀ (size : Size) (b : β) (target : ι),
    ((createTarget size).run b).result = .ok target → imageSize β target = size

namespace Pipeline

variable {p p' : Pipeline β ι π}

private theorem findSome?_target?_of_build {entry : String} {r : Except PipelineError ProgramId}
    {calls : List (Call ι π)} (h : BuildCourse p entry r calls p') :
    calls.findSome? Call.target? = none := by
  rw [List.findSome?_eq_none_iff]
  intro call made
  obtain ⟨source, result, rfl⟩ := h.exists_compile call made
  rfl

variable [Backend β ι π]

/-! ## The images produced -/

/-- **The image that an operation produces** for the place of the current one: of a run over the
current image the target that it was handed, of a load the image decoded, of a restore the one saved
under the name. An operation that fails produces none. -/
def produced? (p : Pipeline β ι π) (op : Op) : Option ι :=
  match (op.step.run p).result, op with
  | .ok (), .apply .. => (p.callsOf op).findSome? Call.target?
  | .ok (), .load _ => (p.callsOf op).findSome? Call.decoded?
  | .ok (), .restore name => p.saved? name
  | .ok (), .register _ | .ok (), .program _ | .ok (), .present | .ok (), .save _ => none
  | .error _, _ => none

/-- The images produced by operations, in order. -/
def images (p : Pipeline β ι π) : List Op → List ι
  | [] => []
  | op :: ops => (p.produced? op).toList ++ (op.step.run p).state.images ops

/-- The image produced last, and the current one if none was. -/
def lastImage (p : Pipeline β ι π) (ops : List Op) : ι :=
  (p.images ops).getLast?.getD p.current

/-- **An operation puts what it produces in the place of the current image**, and one that produces
nothing leaves it. -/
theorem current_step (stored : p.Stored) (op : Op) :
    (op.step.run p).state.current = (p.produced? op).getD p.current := by
  have course := course_step stored op
  unfold produced?
  generalize (op.step.run p).result = r at course ⊢
  generalize (op.step.run p).state = p' at course ⊢
  generalize p.callsOf op = calls at course ⊢
  cases course with
  | registered | unread | loaded | undecoded | saved | unsaved => rfl
  | restored known => simp [known]
  | unbuilt _ build | built build | untargeted build | undrawn build =>
    exact build.undisturbed.current
  | applied build =>
    change _ = (List.findSome? _ _).getD _
    rw [List.findSome?_append, findSome?_target?_of_build build]
    rfl
  | @presented _ _ _ _ answer _ build =>
    cases answer <;> exact build.undisturbed.current

/-- **The current image is the one produced last.** -/
theorem current_after (stored : p.Stored) (ops : List Op) :
    (p.after ops).current = p.lastImage ops := by
  induction ops generalizing p with
  | nil => rfl
  | cons op ops ih =>
    rw [after_cons, ih (stored_step stored op), lastImage, lastImage, images, List.getLast?_append,
      Option.getD_or, current_step stored op]
    cases p.produced? op <;> rfl

/-! ## Draws -/

/-- **A draw that `op` makes of `p`**, by its program, input and output: it reads the current image
of `p` by the program cached for the entry point of `op`. It goes to the surface to present, and else
to a target of this size that was handed out for it. -/
structure DrawnBy (size : Size) (p : Pipeline β ι π) (op : Op) (program : π) (input : ι)
    (output : Destination ι) : Prop where
  input_eq : input = p.current
  cached : ∃ entry id k, op.entry? = some entry ∧ (op.step.run p).state.cached? entry = some id ∧
    (op.step.run p).state.programs.get? id = some k ∧ program = k.compiled
  output_eq : op = .present ∧ output = .surface ∨
    ∃ entry given target, op = .apply entry given ∧ output = .image target ∧
      .createTarget size (.ok target) ∈ p.callsOf op

/-- **Every draw among the calls of an operation** reads, runs and writes what it should. -/
theorem drawnBy_step (stored : p.Stored) {op : Op} {program : π} {input : ι}
    {output : Destination ι} {given : Uniforms} {r : Except BackendError Unit}
    (h : .draw program input output given r ∈ p.callsOf op) :
    DrawnBy p.options.size p op program input output := by
  obtain ⟨entry, given, id, k, draws, cached, known, rfl, rfl, -, output⟩ :=
    (course_step stored op).draw h
  exact ⟨rfl, ⟨entry, id, k, draws.entry?_eq, cached, known, rfl⟩, output⟩

/-! ## Runs over the current image -/

/-- **A run over the current image that succeeds** draws from it into a target that it was handed,
and the target is then the current image. -/
theorem applied_step (stored : p.Stored) {entry : String} {given : Uniforms}
    (h : ((Op.apply entry given).step.run p).result = .ok ()) :
    ∃ front target program uniforms,
      p.callsOf (.apply entry given) = front ++ [.createTarget p.options.size (.ok target),
        .draw program p.current (.image target) uniforms (.ok ())] ∧
      ((Op.apply entry given).step.run p).state.current = target ∧
      ∃ b : β, ((Backend.createTarget p.options.size).run b).result = .ok target := by
  have course := course_step stored (.apply entry given)
  rw [h] at course
  generalize p.callsOf (.apply entry given) = calls at course ⊢
  generalize ((Op.apply entry given).step.run p).state = p' at course ⊢
  cases course with
  | applied build handed known => exact ⟨_, _, _, _, rfl, rfl, _, handed⟩

/-! ## The law -/

/-- **What holds of the images of a pipeline** that was `p` when it was created with `options` and has
carried out `ops`. The calls are all those that reached its backend. -/
structure ImageLaws (options : Options) (p : Pipeline β ι π) (ops : List Op)
    (calls : List (Call ι π)) : Prop where
  /-- The first image is the target handed out at the creation. All other calls are made by the
  operations. -/
  received : calls = .createTarget options.size (.ok p.current) :: p.callsAfter ops
  /-- The current image is the one produced last, or the first if none was produced. -/
  current : (p.after ops).current = p.lastImage ops
  /-- Whatever comes next changes the current image to what it produces, and not if it produces
  none. -/
  step : ∀ op : Op, (op.step.run (p.after ops)).state.current =
    ((p.after ops).produced? op).getD (p.after ops).current
  /-- Every draw that the backend received was made by an operation, of the pipeline as it was
  then. -/
  draws : ∀ program input output given result, .draw program input output given result ∈ calls →
    ∃ before op later, ops = before ++ op :: later ∧
      DrawnBy options.size (p.after before) op program input output
  /-- A run over the current image that succeeds reads the image produced last and draws into a
  target that it was handed, which is then the current image. -/
  applied : ∀ entry given, ((Op.apply entry given).step.run (p.after ops)).result = .ok () →
    ∃ front target program uniforms,
      (p.after ops).callsOf (.apply entry given) =
        front ++ [.createTarget options.size (.ok target),
          .draw program (p.lastImage ops) (.image target) uniforms (.ok ())] ∧
      ((Op.apply entry given).step.run (p.after ops)).state.current = target
  /-- The current image then has the size that the pipeline was told, whatever the size of the image
  that was read. -/
  sized : Backend.TargetsSized β → ∀ entry given,
    ((Op.apply entry given).step.run (p.after ops)).result = .ok () →
    Backend.imageSize β ((Op.apply entry given).step.run (p.after ops)).state.current = options.size

private theorem imageLaws_of_stored (stored : p.Stored) (ops : List Op) :
    ImageLaws p.options p ops (.createTarget p.options.size (.ok p.current) :: p.callsAfter ops) where
  received := rfl
  current := current_after stored ops
  step := current_step (stored_after stored ops)
  draws program input output given result made := by
    obtain created | made := List.mem_cons.1 made
    · cases created
    obtain ⟨before, op, later, split, made⟩ := exists_mem_callsOf made
    rw [← options_after stored before]
    exact ⟨before, op, later, split, drawnBy_step (stored_after stored before) made⟩
  applied entry given succeeded := by
    obtain ⟨front, target, program, uniforms, calls, current, -⟩ :=
      applied_step (stored_after stored ops) succeeded
    rw [options_after stored ops, current_after stored ops] at calls
    exact ⟨front, target, program, uniforms, calls, current⟩
  sized targets entry given succeeded := by
    obtain ⟨front, target, program, uniforms, -, current, b, handed⟩ :=
      applied_step (stored_after stored ops) succeeded
    rw [options_after stored ops] at handed
    rw [current]
    exact targets _ b target handed

/-- **Every image is read where it was put**, over every run of every pipeline and whatever fails in
it. The calls are those of the same run with the backend's calls kept. -/
theorem imageLaws_of_create {b : β} {registry : Registry} {options : Options}
    (h : (create b registry options).result = .ok p) (ops : List Op) :
    ∃ t : Pipeline (Traced β ι π) ι π,
      (create (Traced.of b) registry options).result = .ok t ∧
      (t.after ops).untraced = p.after ops ∧
      ImageLaws options p ops (t.after ops).backend.calls.toList := by
  have stored := stored_of_create h
  obtain ⟨t, created, rfl⟩ := exists_traced_of_create h
  refine ⟨t, created, untraced_after t ops, ?_⟩
  rw [calls_of_create created]
  obtain ⟨image, b', l, call, rfl⟩ := exists_of_create created
  exact imageLaws_of_stored stored ops

/-- The targets of a rehearsal have the size asked for. -/
theorem targetsSized_rehearsal : Backend.TargetsSized Rehearsal := by
  intro size b target handed
  change ((Rehearsal.createTarget size).run b).result = .ok target at handed
  simp only [Rehearsal.createTarget, Job.run_bind, Job.run_get, Outcome.andThen_ok, Job.run_modify,
    Outcome.after_nil] at handed
  split at handed
  · cases handed
  · cases handed
    rfl

/-- A run in which a target is refused, an image is loaded in its place, and a program is run over
that. -/
theorem imageLaws_opening :
    let ops : List Op := [.register "export vec4 a()", .apply "a" ∅, .load "photo"]
    (create rehearsal .empty ⟨⟨4, 4⟩, .medium⟩).result = .ok opening ∧
      (opening.after ops).current = ⟨"photo", ⟨8, 6⟩⟩ ∧
      ((Op.apply "a" ∅).step.run (opening.after ops)).result = .ok () ∧
      ∃ t : Pipeline (Traced Rehearsal Picture Nat) Picture Nat,
        (create (Traced.of rehearsal) .empty ⟨⟨4, 4⟩, .medium⟩).result = .ok t ∧
        (t.after ops).untraced = opening.after ops ∧
        ImageLaws ⟨⟨4, 4⟩, .medium⟩ opening ops (t.after ops).backend.calls.toList ∧
        Backend.imageSize Rehearsal
          ((Op.apply "a" ∅).step.run (opening.after ops)).state.current = ⟨4, 4⟩ := by
  have h : (create rehearsal .empty ⟨⟨4, 4⟩, .medium⟩).result = .ok opening := rfl
  intro ops
  have loaded : (opening.after ops).current = ⟨"photo", ⟨8, 6⟩⟩ := by decide +kernel
  have applied : ((Op.apply "a" ∅).step.run (opening.after ops)).result = .ok () := by decide +kernel
  obtain ⟨t, created, same, laws⟩ := imageLaws_of_create h ops
  exact ⟨h, loaded, applied, t, created, same, laws, laws.sized targetsSized_rehearsal _ _ applied⟩

end Pipeline

end ShaderLink
