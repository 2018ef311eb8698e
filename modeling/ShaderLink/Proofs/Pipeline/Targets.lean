import ShaderLink.Proofs.Pipeline.CarriedOut
import ShaderLink.Proofs.Pipeline.Fresh

/-!
# No image is drawn over

An image is held by a pipeline as its current image or saved under a name, and the same image may be
held many times over. Whatever is held was handed out by the backend before. Each draw that is not
for the viewer goes to a target that was handed out for it alone, in the call right in front of it
(`Orderly`).

**The law** (`targetLaws_of_create`): over a backend that hands out fresh targets no draw of any
session, be its operations carried out at once or deferred, goes to an image that is read in the same
draw, that is held at that time, or that any draw before it has read or written, failed draws
included. So what is once held is never drawn over, and what an image shows does not change while it
can still be asked for.

One operation keeps `Carries`: the calls so far are orderly and what is held was handed out in them
(`Carries.step`, one case for each course of the operation).

**What it does not establish.** That the images handed out are fresh is the backend's part
(`Backend.HandsOutFresh`).
-/

set_option autoImplicit false

namespace ShaderLink

variable {β ι π : Type}

/-- The image that a call draws into. -/
def Call.drawn? : Call ι π → Option ι
  | .draw _ _ (.image target) _ _ => some target
  | .draw _ _ .surface _ _ | .compile .. | .createTarget .. | .decode .. => none

/-- The images that a call reads or draws into. -/
def Call.used : Call ι π → List ι
  | .draw _ input (.image target) _ _ => [input, target]
  | .draw _ input .surface _ _ => [input]
  | .compile .. | .createTarget .. | .decode .. => []

namespace Pipeline

/-! ## Orderly calls -/

/-- **Calls in good order**: a draw reads an image that was handed out before. It goes to the surface,
or to the target that was handed out in the call right in front of it, behind the image that it
reads. -/
inductive Orderly : List (Call ι π) → Prop
  | start : Orderly []
  | other {calls : List (Call ι π)} (h : Orderly calls) {call : Call ι π} (undrawn : call.used = []) :
      Orderly (calls ++ [call])
  | shown {calls : List (Call ι π)} (h : Orderly calls) {input : ι} (old : HandedOut calls input)
      (program : π) (given : Uniforms) (result : Except BackendError Unit) :
      Orderly (calls ++ [.draw program input .surface given result])
  | drawn {calls : List (Call ι π)} (h : Orderly calls) {input : ι} (old : HandedOut calls input)
      (size : Size) (target : ι) (program : π) (given : Uniforms)
      (result : Except BackendError Unit) :
      Orderly (calls ++ [.createTarget size (.ok target),
        .draw program input (.image target) given result])

/-- An image that a call draws into is used by it. -/
theorem mem_used_of_drawn {call : Call ι π} {target : ι} (h : call.drawn? = some target) :
    target ∈ call.used := by
  cases call with
  | draw program input output given result =>
    cases output with
    | image image =>
      cases h
      simp [Call.used]
    | surface => cases h
  | compile | createTarget | decode => cases h

/-- What a call uses was handed out. -/
theorem Orderly.handedOut {calls : List (Call ι π)} (h : Orderly calls) :
    ∀ call ∈ calls, ∀ image ∈ call.used, HandedOut calls image := by
  induction h with
  | start => exact nofun
  | @other calls _ call undrawn ih =>
    rw [List.forall_mem_append, List.forall_mem_singleton, undrawn]
    exact ⟨fun call mem image used => (ih call mem image used).append _, nofun⟩
  | @shown calls _ input old program given result ih =>
    rw [List.forall_mem_append, List.forall_mem_singleton]
    refine ⟨fun call mem image used => (ih call mem image used).append _, fun image used => ?_⟩
    rw [List.mem_singleton.1 used]
    exact old.append _
  | @drawn calls _ input old size target program given result ih =>
    rw [List.forall_mem_append, List.forall_mem_cons, List.forall_mem_singleton]
    refine ⟨fun call mem image used => (ih call mem image used).append _, nofun, ?_⟩
    refine List.forall_mem_cons.2 ⟨old.append _, List.forall_mem_singleton.2 (.inl ?_)⟩
    exact mem_targetsOf_of_mem size (by simp)

/-- **A draw in orderly calls is apart** from what it reads and from all that was used before, if the
targets handed out are fresh. -/
theorem Orderly.apart {calls : List (Call ι π)} (h : Orderly calls) (fresh : Fresh calls) :
    (∀ program input target given result,
      .draw program input (.image target) given result ∈ calls → input ≠ target) ∧
    calls.Pairwise fun earlier later => ∀ target, later.drawn? = some target →
      target ∉ earlier.used := by
  induction h with
  | start => exact ⟨nofun, .nil⟩
  | @other calls _ call undrawn ih =>
    obtain ⟨reads, draws⟩ := ih fresh.of_append
    refine ⟨fun program input target given result mem => ?_, List.pairwise_append.2
      ⟨draws, List.pairwise_singleton _ _, fun earlier _ later mem target drawn => ?_⟩⟩
    · rcases List.mem_append.1 mem with mem | mem
      · exact reads _ _ _ _ _ mem
      · obtain rfl := List.mem_singleton.1 mem
        cases undrawn
    · have used := mem_used_of_drawn drawn
      rw [List.mem_singleton.1 mem, undrawn] at used
      cases used
  | @shown calls _ input old program given result ih =>
    obtain ⟨reads, draws⟩ := ih fresh.of_append
    refine ⟨fun program input target given result mem => ?_, List.pairwise_append.2
      ⟨draws, List.pairwise_singleton _ _, fun earlier _ later mem target drawn => ?_⟩⟩
    · rcases List.mem_append.1 mem with mem | mem
      · exact reads _ _ _ _ _ mem
      · cases List.mem_singleton.1 mem
    · rw [List.mem_singleton.1 mem] at drawn
      cases drawn
  | @drawn calls orderly input old size target program given result ih =>
    obtain ⟨reads, draws⟩ := ih fresh.of_append
    have new : ¬ HandedOut calls target :=
      fresh.not_handedOut (mem_targetsOf_of_mem size List.mem_cons_self)
    refine ⟨fun program' input' target' given' result' mem => ?_, List.pairwise_append.2
      ⟨draws, ?_, fun earlier mem later mem' target' drawn used => ?_⟩⟩
    · rcases List.mem_append.1 mem with mem | mem
      · exact reads _ _ _ _ _ mem
      · obtain ⟨-, rfl, rfl, -⟩ := by simpa using mem
        rintro rfl
        exact new old
    · simp [Call.used]
    · have := orderly.handedOut earlier mem target' used
      obtain rfl | rfl := by simpa using mem'
      · cases drawn
      · obtain rfl : target = target' := Option.some.inj drawn
        exact new this

/-! ## What a pipeline holds -/

/-- The images that a pipeline holds: the current one, and those saved. -/
def Holds (p : Pipeline β ι π) (image : ι) : Prop :=
  image = p.current ∨ ∃ name, p.saved? name = some image

/-- **A pipeline carries on from calls in good order**: what it holds was handed out in them. -/
structure Carries (calls : List (Call ι π)) (p : Pipeline β ι π) : Prop where
  orderly : Orderly calls
  held : ∀ image, p.Holds image → HandedOut calls image

theorem Undisturbed.holds_iff {p p' : Pipeline β ι π} (h : Undisturbed p p') {image : ι} :
    p'.Holds image ↔ p.Holds image := by
  simp only [Holds, saved?, h.current, h.saved]

variable {p p' : Pipeline β ι π} {calls : List (Call ι π)}

/-- Building draws nothing and changes nothing that is held. -/
theorem Carries.build (h : Carries calls p) {entry : String} {r : Except PipelineError ProgramId}
    {more : List (Call ι π)} (build : BuildCourse p entry r more p') :
    Carries (calls ++ more) p' where
  orderly := by
    cases build with
    | cached | ungenerated => exact (List.append_nil calls).symm ▸ h.orderly
    | refused | compiled => exact h.orderly.other rfl
  held image holds := (h.held image (build.undisturbed.holds_iff.1 holds)).append _

/-- A call that draws nothing leaves what is held. -/
theorem Carries.other (h : Carries calls p) {call : Call ι π} (undrawn : call.used = []) {b : β} :
    Carries (calls ++ [call]) { p with backend := b } where
  orderly := h.orderly.other undrawn
  held image holds := (h.held image holds).append _

variable [Backend β ι π]

/-- **One operation** carries on from the calls so far. -/
theorem Carries.step (stored : p.Stored) (h : Carries calls p) (op : Op) :
    Carries (calls ++ p.callsOf op) (op.step.run p).state := by
  have course := course_step stored op
  generalize (op.step.run p).result = r at course
  generalize (op.step.run p).state = p' at course ⊢
  generalize p.callsOf op = more at course ⊢
  cases course with
  | registered | unread | unsaved => exact (List.append_nil calls).symm ▸ ⟨h.orderly, h.held⟩
  | unbuilt _ build | built build => exact h.build build
  | untargeted build =>
    rw [← List.append_assoc]
    exact (h.build build).other rfl
  | @undrawn entry given id more p' target k e b build known =>
    have built := h.build build
    rw [← List.append_assoc]
    refine ⟨built.orderly.drawn ?_ .., fun image holds => (built.held image holds).append _⟩
    exact (h.held _ (.inl rfl)).append _
  | @applied entry given id more p' target k b b' build handed known =>
    have built := h.build build
    rw [← List.append_assoc]
    refine ⟨built.orderly.drawn ((h.held _ (.inl rfl)).append _) .., ?_⟩
    rintro image (rfl | saved)
    · exact .inl (mem_targetsOf_of_mem p.options.size (by simp))
    · exact (built.held image (.inr saved)).append _
  | presented build =>
    have built := h.build build
    rw [← List.append_assoc]
    refine ⟨built.orderly.shown ((h.held _ (.inl rfl)).append _) .., ?_⟩
    exact fun image holds => (built.held image holds).append _
  | @loaded locator image b =>
    refine ⟨h.orderly.other rfl, ?_⟩
    rintro image' (rfl | saved)
    · exact .inr (List.mem_filterMap.2 ⟨_, List.mem_append_right _ List.mem_cons_self, rfl⟩)
    · exact (h.held image' (.inr saved)).append _
  | undecoded => exact h.other rfl
  | @saved name =>
    refine (List.append_nil calls).symm ▸ ⟨h.orderly, ?_⟩
    rintro image (rfl | ⟨name', saved⟩)
    · exact h.held _ (.inl rfl)
    · rw [saved?, Std.ExtTreeMap.getElem?_insert] at saved
      split at saved
      · exact h.held image (.inl (Option.some.inj saved).symm)
      · exact h.held image (.inr ⟨name', saved⟩)
  | restored known =>
    refine (List.append_nil calls).symm ▸ ⟨h.orderly, ?_⟩
    rintro image (rfl | saved)
    · exact h.held _ (.inr ⟨_, known⟩)
    · exact h.held image (.inr saved)

/-- **A run** carries on from the calls so far. -/
theorem Carries.after (stored : p.Stored) (h : Carries calls p) (ops : List Op) :
    Carries (calls ++ p.callsAfter ops) (p.after ops) := by
  induction ops generalizing p calls with
  | nil => exact (List.append_nil calls).symm ▸ h
  | cons op ops ih =>
    rw [callsAfter, ← List.append_assoc]
    exact ih (stored_step stored op) (h.step stored op)

/-! ## The law -/

/-- A target that operations draw into was handed out for one of them. -/
theorem mem_targetsOf_of_drawn (stored : p.Stored) {ops : List Op} {call : Call ι π}
    (made : call ∈ p.callsAfter ops) {target : ι} (drawn : call.drawn? = some target) :
    target ∈ targetsOf (p.callsAfter ops) := by
  obtain ⟨before, op, later, rfl, now⟩ := exists_mem_callsOf made
  rw [callsAfter_append, targetsOf_append, callsAfter, targetsOf_append]
  refine List.mem_append_right _ (List.mem_append_left _ ?_)
  cases call with
  | draw program input output given result =>
    obtain ⟨-, rfl⟩ | ⟨_, _, target', -, rfl, handed⟩ :=
      (drawnBy_step (stored_after stored before) now).output_eq
    · cases drawn
    · cases drawn
      exact mem_targetsOf_of_mem _ handed
  | compile | createTarget | decode => cases drawn

/-- An operation that makes a call saves nothing. -/
theorem saved_of_call (stored : p.Stored) {op : Op} {call : Call ι π} (made : call ∈ p.callsOf op) :
    (op.step.run p).state.saved = p.saved := by
  refine saved_step stored ?_
  rintro name rfl
  have quiet : p.callsOf (.save name) = [] := by
    rw [callsOf, Op.step, run_save]
    rfl
  rw [quiet] at made
  cases made

/-- **What holds of the draws of a pipeline** that was `p` when it was created with `options` and has
carried out `ops`. The calls are all those that reached its backend. -/
structure TargetLaws (options : Options) (p : Pipeline β ι π) (ops : List Op)
    (calls : List (Call ι π)) : Prop where
  /-- The first call is that of the creation. All other calls are made by the operations. -/
  received : calls = .createTarget options.size (.ok p.current) :: p.callsAfter ops
  /-- No draw goes to the image that it reads, -/
  apart : ∀ program input target given result,
    .draw program input (.image target) given result ∈ calls → input ≠ target
  /-- nor to one that any draw before it has read or gone to, failed or not, -/
  unused : calls.Pairwise fun earlier later => ∀ target, later.drawn? = some target →
    target ∉ earlier.used
  /-- nor to one that is held when it is made. What is saved is then what was saved in front of the
  operation that draws. -/
  unheld : ∀ before op later, ops = before ++ op :: later →
    ∀ call ∈ (p.after before).callsOf op, ∀ target, call.drawn? = some target →
      ¬ (p.after before).Holds target ∧
      (op.step.run (p.after before)).state.saved = (p.after before).saved
  /-- What is held at any time no draw goes to from then on. -/
  lasting : ∀ before later, ops = before ++ later → ∀ image, (p.after before).Holds image →
    ∀ call ∈ (p.after before).callsAfter later, call.drawn? ≠ some image

private theorem targetLaws_of_fresh (stored : p.Stored) (ops : List Op)
    (fresh : Fresh (.createTarget p.options.size (.ok p.current) :: p.callsAfter ops))
    (created : ∀ image, p.Holds image → image = p.current) :
    TargetLaws p.options p ops (.createTarget p.options.size (.ok p.current) :: p.callsAfter ops) := by
  have start : Carries [.createTarget p.options.size (.ok p.current)] p := by
    refine ⟨Orderly.start.other rfl, fun image holds => .inl ?_⟩
    rw [created image holds]
    exact mem_targetsOf_of_mem _ List.mem_cons_self
  have lasting : ∀ before later, ops = before ++ later → ∀ image, (p.after before).Holds image →
      ∀ call ∈ (p.after before).callsAfter later, call.drawn? ≠ some image := by
    rintro before later rfl image holds call made drawn
    rw [callsAfter_append, ← List.cons_append] at fresh
    have target := mem_targetsOf_of_drawn (stored_after stored before) made drawn
    exact fresh.not_handedOut target ((start.after stored before).held image holds)
  obtain ⟨apart, unused⟩ := (start.after stored ops).orderly.apart fresh
  refine { received := rfl, apart, unused, unheld := ?_, lasting }
  rintro before op later split call made target drawn
  refine ⟨fun holds => ?_, saved_of_call (stored_after stored before) made⟩
  exact lasting before (op :: later) split target holds call (List.mem_append_left _ made) drawn

/-- **No image in use is drawn over**, in any session over a backend that hands out fresh targets,
whatever is deferred and whatever fails in it. The calls are those of the same session with the
backend's calls kept. -/
theorem targetLaws_of_create {b : β} {registry : Registry} {options : Options}
    (fresh : Backend.HandsOutFresh b) (h : (create b registry options).result = .ok p)
    (script : List Action) :
    ((Front.direct p).after script).pipeline = p.after (p.carriedOut script) ∧
      ∃ t : Pipeline (Traced β ι π) ι π,
        (create (Traced.of b) registry options).result = .ok t ∧
        ((Front.direct t).after script).pipeline.untraced =
          ((Front.direct p).after script).pipeline ∧
        TargetLaws options p (p.carriedOut script)
          ((Front.direct t).after script).pipeline.backend.calls.toList := by
  have stored := stored_of_create h
  obtain ⟨t, created, rfl⟩ := exists_traced_of_create h
  refine ⟨pipeline_after _ script, t, created, ?_, ?_⟩
  · rw [pipeline_after, pipeline_after, untraced_after, carriedOut_untraced]
  have handed := fresh _ _ (serves_after created (t.carriedOut script))
  rw [calls_of_create created] at handed
  rw [pipeline_after, carriedOut_untraced, calls_of_create created]
  obtain ⟨image, b', l, call, rfl⟩ := exists_of_create created
  refine targetLaws_of_fresh stored _ handed ?_
  rintro image' (current | ⟨name, saved⟩)
  · exact current
  · simp [saved?, untraced] at saved

/-- No locator of the rehearsal looks like the label of a target. -/
theorem handsOutFresh_rehearsal : Backend.HandsOutFresh rehearsal := by
  refine Rehearsal.handsOutFresh_of fun resource known n same => ?_
  obtain rfl := List.mem_singleton.1 known
  -- The labels of targets begin with another letter.
  have first := congrArg (fun label => label.toList.head?) same
  simp [Rehearsal.targetLabel] at first

/-- A session in which the first target is refused to a run over the blank image, which was saved
before; two more runs and a restore are deferred. -/
theorem targetLaws_opening :
    let script : List Action := [.op (.register "export vec4 a()"), .op (.save "blank"),
      .op (.apply "a" ∅), .defer, .op (.apply "a" ∅), .op (.restore "blank"), .op (.apply "a" ∅),
      .submit]
    Backend.HandsOutFresh rehearsal ∧
      (create rehearsal .empty ⟨⟨4, 4⟩, .medium⟩).result = .ok opening ∧
      ∃ t : Pipeline (Traced Rehearsal Picture Nat) Picture Nat,
        (create (Traced.of rehearsal) .empty ⟨⟨4, 4⟩, .medium⟩).result = .ok t ∧
        ((Front.direct t).after script).pipeline.backend.calls.toList.filterMap Call.drawn? =
          [⟨"target#3", ⟨4, 4⟩⟩, ⟨"target#4", ⟨4, 4⟩⟩] ∧
        TargetLaws ⟨⟨4, 4⟩, .medium⟩ opening (opening.carriedOut script)
          ((Front.direct t).after script).pipeline.backend.calls.toList := by
  have h : (create rehearsal .empty ⟨⟨4, 4⟩, .medium⟩).result = .ok opening := rfl
  intro script
  obtain ⟨-, t, created, -, laws⟩ := targetLaws_of_create handsOutFresh_rehearsal h script
  refine ⟨handsOutFresh_rehearsal, h, t, created, ?_, laws⟩
  cases created
  decide +kernel

end Pipeline

end ShaderLink
