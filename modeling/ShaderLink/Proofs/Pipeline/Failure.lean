import ShaderLink.Proofs.Pipeline.Cache
import ShaderLink.Proofs.Pipeline.Course

/-!
# Failed operations

An operation can fail at any of its calls to the backend and at what it does before the first. What
a failure leaves depends on how far the operation has come.

**The law** (`failureLaws_of_create`): after every run, an operation that fails leaves the images,
the registry and the options exactly as they are, and every program that is cached. Its error comes
from exactly one stage. If the stage stands before the program is there, or asks for none, the
programs are exactly as before; behind it, the entry point of the operation is cached, and no other
is touched. An operation that presents leaves images and registry as they are in any case.

The stage is read off the calls: the last of them is the one that failed (`FailsAt.eq_stage`). What
is left is read off the courses of an operation, one case for each that fails (`exists_failsAt`).

**What it does not establish.** The backend may be left in any state by a call that fails. Nothing is
said of the log.
-/

set_option autoImplicit false

namespace ShaderLink.Pipeline

/-! ## Stages -/

/-- Where an operation can fail. -/
inductive Stage
  /-- A module is read. -/
  | reading
  /-- The modules of an entry point are linked, and its program is generated. -/
  | generating
  | compiling
  | allocating
  | drawing
  | decoding
  /-- A saved image is looked for. -/
  | finding

/-- Whether an operation has its program when it comes to the stage. -/
def Stage.behindProgram : Stage → Bool
  | allocating | drawing => true
  | reading | generating | compiling | decoding | finding => false

variable {β ι π : Type} {p p' : Pipeline β ι π} {op : Op} {e : PipelineError}

/-- What a failure of `op` at a stage makes of the programs of `p`: nothing before the program is
there, and behind it the entry point of `op` is cached. -/
def Stage.Leaves (s : Stage) (p : Pipeline β ι π) (op : Op) (p' : Pipeline β ι π) : Prop :=
  match s.behindProgram with
  | false => p'.cache = p.cache ∧ p'.programs = p.programs
  | true => ∃ entry id, op.entry? = some entry ∧ p'.cached? entry = some id ∧
      ∀ other, other ≠ entry → p'.cached? other = p.cached? other

private theorem leaves_of_built {s : Stage} (behind : s.behindProgram = true) {entry : String}
    {id : ProgramId} {calls : List (Call ι π)} {b : β} (asks : op.entry? = some entry)
    (build : BuildCourse p entry (.ok id) calls p') : s.Leaves p op { p' with backend := b } := by
  rw [Stage.Leaves, behind]
  exact ⟨entry, id, asks, build.cached?_self, fun _ ne => build.cached?_of_ne ne⟩

variable [Backend β ι π]

/-- **The error `e` of `op` comes from this stage.** Where it comes from the backend, it is what the
last call returned; where it does not, no call was made. -/
def FailsAt (p : Pipeline β ι π) (op : Op) (e : PipelineError) : Stage → Prop
  | .reading => p.callsOf op = [] ∧
      ∃ source cause, op = .register source ∧ p.registry.register source = .error cause ∧
        e = .build cause
  | .generating => p.callsOf op = [] ∧
      ∃ entry cause, op.entry? = some entry ∧ p.cached? entry = none ∧
        p.generate entry = .error cause ∧ e = .build cause
  | .finding => p.callsOf op = [] ∧
      ∃ name, op = .restore name ∧ p.saved? name = none ∧ e = .unknownBuffer name
  | .compiling => ∃ source cause,
      (p.callsOf op).getLast? = some (.compile source (.error cause)) ∧ e = .backend cause
  | .allocating => ∃ size cause,
      (p.callsOf op).getLast? = some (.createTarget size (.error cause)) ∧ e = .backend cause
  | .drawing => ∃ program input output given cause,
      (p.callsOf op).getLast? = some (.draw program input output given (.error cause)) ∧
        e = .backend cause
  | .decoding => ∃ locator cause,
      (p.callsOf op).getLast? = some (.decode locator (.error cause)) ∧ e = .backend cause

/-- The stage of an operation behind the calls that it made: that of the last, and that in front of
all calls if there is none. -/
def Op.stage (op : Op) (calls : List (Call ι π)) : Stage :=
  match calls.getLast?, op with
  | some (.compile ..), _ => .compiling
  | some (.createTarget ..), _ => .allocating
  | some (.draw ..), _ => .drawing
  | some (.decode ..), _ => .decoding
  | none, .register _ => .reading
  | none, .restore _ => .finding
  | none, _ => .generating

/-- **The calls tell the stage.** -/
theorem FailsAt.eq_stage {s : Stage} (h : FailsAt p op e s) : s = op.stage (p.callsOf op) := by
  cases s with
  | reading =>
    obtain ⟨quiet, source, cause, rfl, -⟩ := h
    rw [quiet]
    rfl
  | generating =>
    obtain ⟨quiet, entry, cause, asks, -⟩ := h
    rw [quiet]
    cases op with
    | program | apply | present => rfl
    | register | load | save | restore => cases asks
  | finding =>
    obtain ⟨quiet, name, rfl, -⟩ := h
    rw [quiet]
    rfl
  | compiling | allocating | decoding =>
    obtain ⟨_, _, last, -⟩ := h
    simp only [Op.stage, last]
  | drawing =>
    obtain ⟨_, _, _, _, _, last, -⟩ := h
    simp only [Op.stage, last]

/-! ## What a failure leaves -/

private theorem exists_failsAt_of_unbuilt {entry : String} (asks : op.entry? = some entry)
    {calls : List (Call ι π)} (made : p.callsOf op = calls)
    (h : BuildCourse p entry (.error e) calls p') : ∃ s, FailsAt p op e s ∧ s.Leaves p op p' := by
  cases h with
  | ungenerated new text => exact ⟨.generating, ⟨made, entry, _, asks, new, text, rfl⟩, rfl, rfl⟩
  | refused new text => exact ⟨.compiling, ⟨_, _, congrArg List.getLast? made, rfl⟩, rfl, rfl⟩

/-- **Every failure comes from a stage**, and makes of the programs what the stage does. -/
private theorem exists_failsAt {r : Except PipelineError Unit} {calls : List (Call ι π)}
    (h : op.Course p r calls p') (made : p.callsOf op = calls) (failed : r = .error e) :
    ∃ s, FailsAt p op e s ∧ s.Leaves p op p' := by
  cases h with
  | unread read =>
    cases failed
    exact ⟨.reading, ⟨made, _, _, rfl, read, rfl⟩, rfl, rfl⟩
  | unbuilt asks build =>
    cases failed
    exact exists_failsAt_of_unbuilt asks made build
  | untargeted build =>
    cases failed
    have last := (congrArg List.getLast? made).trans List.getLast?_concat
    exact ⟨.allocating, ⟨_, _, last, rfl⟩, leaves_of_built rfl rfl build⟩
  | undrawn build known =>
    cases failed
    have last := (congrArg List.getLast? made).trans List.getLast?_append
    exact ⟨.drawing, ⟨_, _, _, _, _, last, rfl⟩, leaves_of_built rfl rfl build⟩
  | @presented _ _ _ _ answer _ build known =>
    cases answer with
    | ok u => cases failed
    | error cause =>
      cases failed
      have last := (congrArg List.getLast? made).trans List.getLast?_concat
      exact ⟨.drawing, ⟨_, _, _, _, _, last, rfl⟩, leaves_of_built rfl rfl build⟩
  | undecoded =>
    cases failed
    exact ⟨.decoding, ⟨_, _, congrArg List.getLast? made, rfl⟩, rfl, rfl⟩
  | unsaved missing =>
    cases failed
    exact ⟨.finding, ⟨made, _, rfl, missing, rfl⟩, rfl, rfl⟩
  | registered | built | applied | loaded | saved | restored => cases failed

/-- Building moves nothing but programs, and what comes behind it moves nothing before it succeeds. -/
private theorem undisturbed_of_failure {r : Except PipelineError Unit} {calls : List (Call ι π)}
    (h : op.Course p r calls p') (failed : r = .error e) : Undisturbed p p' := by
  cases h with
  | unread | unsaved | undecoded => exact ⟨rfl, rfl, rfl, rfl⟩
  | unbuilt asks build => exact build.undisturbed
  | untargeted build => exact { build.undisturbed with }
  | undrawn build => exact { build.undisturbed with }
  | presented build => exact { build.undisturbed with }
  | registered | built | applied | loaded | saved | restored => cases failed

private theorem undisturbed_of_present {r : Except PipelineError Unit} {calls : List (Call ι π)}
    (h : Op.present.Course p r calls p') : Undisturbed p p' := by
  cases h with
  | unbuilt asks build => exact build.undisturbed
  | presented build => exact { build.undisturbed with }

/-! ## The law -/

/-- **What the failure of `op` with `e` means** for the pipeline `p`. -/
structure FailureLaws (p : Pipeline β ι π) (op : Op) (e : PipelineError) : Prop where
  /-- Images, registry and options are exactly as before. -/
  undisturbed : Undisturbed p (op.step.run p).state
  /-- What was cached is cached under its number, and the program of the number is the same. -/
  kept : ∀ entry id, p.cached? entry = some id →
    (op.step.run p).state.cached? entry = some id ∧
      (op.step.run p).state.programs.get? id = p.programs.get? id
  /-- The error comes from exactly one stage. -/
  stage : ∃! s, FailsAt p op e s
  /-- An error that comes from reading, generating, compiling, decoding or finding leaves the
  programs exactly as they are. -/
  early : ∀ s, FailsAt p op e s → s.behindProgram = false →
    (op.step.run p).state.cache = p.cache ∧ (op.step.run p).state.programs = p.programs
  /-- One that comes from allocating or drawing leaves them as they are, but for the entry point of
  the operation, which is cached, if it was not before. -/
  late : ∀ s, FailsAt p op e s → s.behindProgram = true →
    ∃ entry id k, op.entry? = some entry ∧ (op.step.run p).state.cached? entry = some id ∧
      (op.step.run p).state.programs.get? id = some k ∧
      ∀ other, other ≠ entry → (op.step.run p).state.cached? other = p.cached? other

private theorem failureLaws_of_stored (stored : p.Stored)
    (failed : (op.step.run p).result = .error e) : FailureLaws p op e := by
  have course := course_step stored op
  obtain ⟨s, fails, leaves⟩ := exists_failsAt course rfl failed
  have unique : ∀ s', FailsAt p op e s' → s' = s := fun s' fails' =>
    fails'.eq_stage.trans fails.eq_stage.symm
  constructor
  case undisturbed => exact undisturbed_of_failure course failed
  case kept =>
    intro entry id known
    exact kept_step stored op known
  case stage => exact ⟨s, fails, unique⟩
  case early =>
    intro s' fails' early
    rw [Stage.Leaves, ← unique s' fails', early] at leaves
    exact leaves
  case late =>
    intro s' fails' late
    rw [Stage.Leaves, ← unique s' fails', late] at leaves
    obtain ⟨entry, id, asks, cached, others⟩ := leaves
    obtain ⟨k, known⟩ := stored_step stored op entry id cached
    exact ⟨entry, id, k, asks, cached, known, others⟩

/-- **An operation that fails leaves nothing but programs behind**, after every run of every pipeline
and whatever the backend answers. Presenting leaves images and registry as they are also when it
succeeds. -/
theorem failureLaws_of_create {b : β} {registry : Registry} {options : Options}
    (h : (create b registry options).result = .ok p) (ops : List Op) :
    (∀ op e, (op.step.run (p.after ops)).result = .error e → FailureLaws (p.after ops) op e) ∧
      Undisturbed (p.after ops) (present.run (p.after ops)).state := by
  have stored := stored_after (stored_of_create h) ops
  refine ⟨fun op e failed => failureLaws_of_stored stored failed, ?_⟩
  exact undisturbed_of_present (course_step stored .present)

/-- A target that is refused behind a compilation. -/
theorem failureLaws_opening :
    let p := opening.after [.register "export vec4 a()"]
    let e : PipelineError := .backend (.allocate "target 2")
    (create rehearsal .empty ⟨⟨4, 4⟩, .medium⟩).result = .ok opening ∧
      ((Op.apply "a" ∅).step.run p).result = .error e ∧
      FailureLaws p (.apply "a" ∅) e ∧ Undisturbed p (present.run p).state := by
  have h : (create rehearsal .empty ⟨⟨4, 4⟩, .medium⟩).result = .ok opening := rfl
  intro p e
  have failed : ((Op.apply "a" ∅).step.run p).result = .error e := by decide +kernel
  obtain ⟨laws, presented⟩ := failureLaws_of_create h [.register "export vec4 a()"]
  exact ⟨h, failed, laws _ _ failed, presented⟩

end ShaderLink.Pipeline
