import ShaderLink.Backend.Rehearsal
import ShaderLink.Proofs.Pipeline.Images

/-!
# Backends that hand out fresh targets

A target is for one draw. A backend hands out fresh targets from a state on when, whatever calls
follow there, none of the targets is one that was handed out before, and none is the image of a
resource. It is all that a pipeline needs of a backend to keep its images apart.

`Backend.Serves` lists the calls that can follow a state with what they return. The calls that a
pipeline makes are among them (`serves_after`).

**The law** (`handsOutFresh_of`): a rehearsal hands out fresh targets if none of its resources is at
a locator that looks like the label of a target.
-/

set_option autoImplicit false

namespace ShaderLink

variable {β ι π : Type}

/-- The targets that calls hand out. -/
def targetsOf (calls : List (Call ι π)) : List ι := calls.filterMap Call.target?

/-- The images of the resources that calls ask for. -/
def decodedOf (calls : List (Call ι π)) : List ι := calls.filterMap Call.decoded?

/-- An image that was handed out by calls. -/
def HandedOut (calls : List (Call ι π)) (image : ι) : Prop :=
  image ∈ targetsOf calls ∨ image ∈ decodedOf calls

/-- No target was handed out twice, and none is the image of a resource. -/
structure Fresh (calls : List (Call ι π)) : Prop where
  nodup : (targetsOf calls).Nodup
  undecoded : ∀ image ∈ decodedOf calls, image ∉ targetsOf calls

@[simp] theorem targetsOf_append (calls more : List (Call ι π)) :
    targetsOf (calls ++ more) = targetsOf calls ++ targetsOf more :=
  List.filterMap_append

@[simp] theorem decodedOf_append (calls more : List (Call ι π)) :
    decodedOf (calls ++ more) = decodedOf calls ++ decodedOf more :=
  List.filterMap_append

theorem targetsOf_concat (calls : List (Call ι π)) (call : Call ι π) :
    targetsOf (calls ++ [call]) = targetsOf calls ++ call.target?.toList := by
  rw [targetsOf_append]
  cases h : call.target? <;> simp [targetsOf, h]

theorem decodedOf_concat (calls : List (Call ι π)) (call : Call ι π) :
    decodedOf (calls ++ [call]) = decodedOf calls ++ call.decoded?.toList := by
  rw [decodedOf_append]
  cases h : call.decoded? <;> simp [decodedOf, h]

theorem mem_targetsOf_of_mem (size : Size) {calls : List (Call ι π)} {target : ι}
    (h : .createTarget size (.ok target) ∈ calls) : target ∈ targetsOf calls :=
  List.mem_filterMap.2 ⟨_, h, rfl⟩

theorem HandedOut.append {calls : List (Call ι π)} {image : ι} (h : HandedOut calls image)
    (more : List (Call ι π)) : HandedOut (calls ++ more) image := by
  rw [HandedOut, targetsOf_append, decodedOf_append]
  exact h.imp (List.mem_append_left _) (List.mem_append_left _)

theorem Fresh.of_append {calls more : List (Call ι π)} (h : Fresh (calls ++ more)) : Fresh calls where
  nodup := by
    have both := h.nodup
    rw [targetsOf_append, List.nodup_append] at both
    exact both.1
  undecoded image mem target := by
    refine h.undecoded image ?_ ?_
    · rw [decodedOf_append]
      exact List.mem_append_left _ mem
    · rw [targetsOf_append]
      exact List.mem_append_left _ target

/-- **A target is none of the images handed out before.** -/
theorem Fresh.not_handedOut {calls more : List (Call ι π)} (h : Fresh (calls ++ more)) {image : ι}
    (mem : image ∈ targetsOf more) : ¬ HandedOut calls image := by
  rintro (old | old)
  · have both := h.nodup
    rw [targetsOf_append, List.nodup_append] at both
    exact both.2.2 image old image mem rfl
  · refine h.undecoded image ?_ ?_
    · rw [decodedOf_append]
      exact List.mem_append_left _ old
    · rw [targetsOf_append]
      exact List.mem_append_right _ mem

/-! ## Calls that can follow a state -/

namespace Backend

variable [Backend β ι π]

/-- **The calls that a backend serves**, one after the other, from the state `b` on, each with what it
returns, and the state in which the backend is then. -/
inductive Serves (b : β) : List (Call ι π) → β → Prop
  | start : Serves b [] b
  | compile {calls : List (Call ι π)} {b' : β} (h : Serves b calls b') (source : String) :
      Serves b (calls ++ [.compile source ((Backend.compile source).run b').result])
        ((Backend.compile source).run b').state
  | createTarget {calls : List (Call ι π)} {b' : β} (h : Serves b calls b') (size : Size) :
      Serves b (calls ++ [.createTarget size ((Backend.createTarget size).run b').result])
        ((Backend.createTarget size).run b').state
  | draw {calls : List (Call ι π)} {b' : β} (h : Serves b calls b') (program : π) (input : ι)
      (output : Destination ι) (given : Uniforms) :
      Serves b (calls ++ [.draw program input output given
          ((Backend.draw program input output given).run b').result])
        ((Backend.draw program input output given).run b').state
  | decode {calls : List (Call ι π)} {b' : β} (h : Serves b calls b') (locator : String) :
      Serves b (calls ++ [.decode locator ((Backend.decode locator).run b').result])
        ((Backend.decode locator).run b').state

/-- **From this state on the backend hands out fresh targets**, whatever it is asked. -/
def HandsOutFresh (b : β) : Prop :=
  ∀ calls b', Serves b calls b' → Fresh calls

/-- What a backend keeps of its calls is what it served. -/
def Keeps (b : β) (t : Traced β ι π) : Prop :=
  Serves b t.calls.toList t.backend

theorem keeps_of (b : β) : Keeps b (Traced.of b) := .start

private theorem keeps_keeping {α : Type} {b : β} {call : Except BackendError α → Call ι π}
    {j : Job β BackendError α} {t : Traced β ι π}
    (h : Serves b (t.calls.toList ++ [call (j.run t.backend).result]) (j.run t.backend).state) :
    Keeps b ((Traced.keeping call j).run t).state := by
  rw [Traced.run_keeping, Keeps, Array.toList_push]
  exact h

theorem callsKeep_keeps (b : β) : Pipeline.CallsKeep (Keeps (ι := ι) (π := π) b) where
  compile source _ h := keeps_keeping (h.compile source)
  createTarget size _ h := keeps_keeping (h.createTarget size)
  draw program input output given _ h := keeps_keeping (h.draw program input output given)
  decode locator _ h := keeps_keeping (h.decode locator)

end Backend

namespace Pipeline

variable [Backend β ι π]

/-- **The calls of a pipeline** are served by its backend from the creation on. -/
theorem serves_after {b : β} {registry : Registry} {options : Options}
    {t : Pipeline (Traced β ι π) ι π}
    (h : (create (Traced.of b) registry options).result = .ok t) (ops : List Op) :
    Backend.Serves b (t.after ops).backend.calls.toList (t.after ops).backend.backend := by
  have keep := Backend.callsKeep_keeps (ι := ι) (π := π) b
  obtain ⟨image, b', l, call, rfl⟩ := exists_of_create h
  have created := keep.createTarget options.size _ (Backend.keeps_of b)
  rw [call] at created
  exact after_of_step (P := fun t => Backend.Keeps b t.backend) (fun _ op h => keep.step h op)
    created ops

end Pipeline

/-! ## Rehearsals -/

namespace Rehearsal

/-- The label of a target. -/
def targetLabel (number : Nat) : String := "target#" ++ toString number

theorem targetLabel_inj {m n : Nat} : targetLabel m = targetLabel n ↔ m = n := by
  rw [targetLabel, targetLabel, Nat.toString_eq_repr, Nat.toString_eq_repr,
    String.append_right_inj]
  refine ⟨fun same => ?_, congrArg Nat.repr⟩
  -- The digits of a numeral give the number back.
  calc
    m = Nat.ofDigitChars 10 m.repr.toList 0 := by
      rw [Nat.toList_repr, Nat.ofDigitChars_ten_toDigits]
    _ = Nat.ofDigitChars 10 n.repr.toList 0 := by rw [same]
    _ = n := by rw [Nat.toList_repr, Nat.ofDigitChars_ten_toDigits]

/-- What can be said of the calls that a rehearsal has served: its targets are labelled by numbers
up to the count, each number once, and its other images by locators. -/
structure Labelled (script : Script) (calls : List (Call Picture Nat)) (r : Rehearsal) : Prop where
  script_eq : r.script = script
  labels : ∀ image ∈ targetsOf calls, ∃ n ≤ r.targets, image.label = targetLabel n
  nodup : (targetsOf calls).Nodup
  decoded : ∀ image ∈ decodedOf calls, ∃ resource ∈ script.images, image.label = resource.1

theorem run_createTarget (size : Size) (r : Rehearsal) :
    (createTarget size).run r =
      let number := r.targets + 1
      ⟨if number ∈ r.script.failTargets then .error (.allocate ("target " ++ toString number))
        else .ok ⟨targetLabel number, size⟩, { r with targets := number }, []⟩ := by
  simp only [createTarget, Job.run_bind, Job.run_get, Outcome.andThen_ok, Job.run_modify,
    Outcome.after_nil]
  split <;> rfl

theorem run_decode (locator : String) (r : Rehearsal) :
    (decode locator).run r =
      ⟨match r.script.images.lookup locator with
        | some size => .ok ⟨locator, size⟩
        | none => .error (.decode locator "not found"), r, []⟩ := by
  simp only [decode, Job.run_bind, Job.run_wait, Job.run_get, Outcome.andThen_ok,
    Outcome.after_nil]
  cases r.script.images.lookup locator <;> rfl

theorem same_of_compile (source : String) (r : Rehearsal) :
    ((compile source).run r).state.script = r.script ∧
      ((compile source).run r).state.targets = r.targets := by
  simp only [compile, Job.run_bind, Job.run_get, Outcome.andThen_ok]
  split <;> exact ⟨rfl, rfl⟩

theorem same_of_draw (r : Rehearsal) :
    (draw.run r).state.script = r.script ∧ (draw.run r).state.targets = r.targets := by
  simp only [draw, Job.run_bind, Job.run_get, Outcome.andThen_ok, Job.run_modify]
  split <;> exact ⟨rfl, rfl⟩

variable {script : Script} {calls : List (Call Picture Nat)} {r r' : Rehearsal}

/-- A call that hands out no image keeps what can be said. -/
theorem Labelled.other (h : Labelled script calls r) {call : Call Picture Nat}
    (target : call.target? = none) (image : call.decoded? = none)
    (same : r'.script = r.script ∧ r'.targets = r.targets) :
    Labelled script (calls ++ [call]) r' where
  script_eq := same.1.trans h.script_eq
  labels := by
    rw [targetsOf_concat, target, same.2, Option.toList_none, List.append_nil]
    exact h.labels
  nodup := by
    rw [targetsOf_concat, target, Option.toList_none, List.append_nil]
    exact h.nodup
  decoded := by
    rw [decodedOf_concat, image, Option.toList_none, List.append_nil]
    exact h.decoded

/-- A target has the next number. -/
theorem Labelled.target (h : Labelled script calls r) (size : Size) :
    Labelled script (calls ++ [.createTarget size ((createTarget size).run r).result])
      ((createTarget size).run r).state := by
  rw [run_createTarget]
  have older : ∀ image ∈ targetsOf calls, ∃ n ≤ r.targets + 1, image.label = targetLabel n := by
    intro image mem
    obtain ⟨n, le, label⟩ := h.labels image mem
    exact ⟨n, Nat.le_succ_of_le le, label⟩
  have images : ∀ result : Except BackendError Picture,
      decodedOf (calls ++ [.createTarget size result]) = decodedOf calls := by
    intro result
    rw [decodedOf_concat]
    exact List.append_nil _
  have given (result : Except BackendError Picture) :
      targetsOf (calls ++ [.createTarget size result]) =
        targetsOf calls ++ result.toOption.toList :=
    targetsOf_concat ..
  by_cases refused : r.targets + 1 ∈ r.script.failTargets
  · simp only [if_pos refused]
    refine ⟨h.script_eq, ?_, ?_, ?_⟩
    · simpa [given, Except.toOption] using older
    · simpa [given, Except.toOption] using h.nodup
    · rw [images]
      exact h.decoded
  · simp only [if_neg refused]
    refine ⟨h.script_eq, ?_, ?_, ?_⟩
    · rw [given, List.forall_mem_append]
      exact ⟨older, List.forall_mem_singleton.2 ⟨_, Nat.le_refl _, rfl⟩⟩
    · rw [given]
      refine List.nodup_append.2 ⟨h.nodup, by simp [Except.toOption], fun image mem new mem' => ?_⟩
      rintro rfl
      obtain ⟨n, le, label⟩ := h.labels image mem
      rw [List.mem_singleton.1 mem', targetLabel_inj] at label
      omega
    · rw [images]
      exact h.decoded

/-- The image of a resource is labelled by its locator. -/
theorem Labelled.image (h : Labelled script calls r) (locator : String) :
    Labelled script (calls ++ [.decode locator ((decode locator).run r).result])
      ((decode locator).run r).state := by
  rw [run_decode]
  have given (result : Except BackendError Picture) :
      targetsOf (calls ++ [.decode locator result]) = targetsOf calls := by
    rw [targetsOf_concat]
    exact List.append_nil _
  refine ⟨h.script_eq, given _ ▸ h.labels, given _ ▸ h.nodup, ?_⟩
  rw [decodedOf_concat, List.forall_mem_append]
  refine ⟨h.decoded, fun image mem => ?_⟩
  cases found : r.script.images.lookup locator with
  | none =>
    rw [found] at mem
    cases mem
  | some size =>
    rw [found] at mem
    obtain ⟨front, back, images, -⟩ := List.lookup_eq_some_iff.1 found
    refine ⟨(locator, size), ?_, by rw [List.mem_singleton.1 mem]⟩
    rw [← h.script_eq, images]
    exact List.mem_append_right _ List.mem_cons_self

theorem labelled_of_serves (h : Backend.Serves (of script) calls r) :
    Labelled script calls r := by
  induction h with
  | start => exact ⟨rfl, nofun, .nil, nofun⟩
  | compile _ source ih => exact ih.other rfl rfl (same_of_compile source _)
  | createTarget _ size ih => exact ih.target size
  | draw _ program input output given ih => exact ih.other rfl rfl (same_of_draw _)
  | decode _ locator ih => exact ih.image locator

/-- **A rehearsal hands out fresh targets** if none of its locators looks like the label of one. -/
theorem handsOutFresh_of (h : ∀ resource ∈ script.images, ∀ n, resource.1 ≠ targetLabel n) :
    Backend.HandsOutFresh (of script) := by
  intro calls r serves
  have labelled := labelled_of_serves serves
  refine ⟨labelled.nodup, fun image mem target => ?_⟩
  obtain ⟨resource, known, label⟩ := labelled.decoded image mem
  obtain ⟨n, -, label'⟩ := labelled.labels image target
  exact h resource known n (label.symm.trans label')

end Rehearsal

end ShaderLink
