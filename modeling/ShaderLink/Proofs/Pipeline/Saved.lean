import ShaderLink.Proofs.Lists
import ShaderLink.Proofs.Pipeline.Cache
import ShaderLink.Proofs.Pipeline.CarriedOut
import ShaderLink.Proofs.Pipeline.Course

/-!
# What is saved comes back

A pipeline saves its current image under a name, and restores it when it is asked for the name. The two
may be far apart, with draws, loads, failures and other names in between.

**The law** (`savedLaws_of_create`): after every run there stands under each name the image that was
current when one was last saved under it (`LastSave`), and none if none ever was. So to restore fails
exactly for a name under which nothing was saved, and else brings that image back, as often as it is
asked for.

The step is that no operation but to save under a name changes what stands there
(`saved?_step_of_ne`). A run without such an operation leaves it (`saved?_after_of_notMem`), and every
other run is split where the last one is carried out.

**What it does not establish.** An image that comes back is the same image. That it still shows the same
is said by `TargetLaws`.
-/

set_option autoImplicit false

namespace ShaderLink.Pipeline

variable {β ι π : Type} {p : Pipeline β ι π} {name : String}

/-! ## One operation -/

theorem run_restore_of_none (free : p.saved? name = none) :
    (restore name).run p = ⟨.error (.unknownBuffer name), p, []⟩ := by
  rw [run_restore, free]

theorem run_restore_of_some {image : ι} (known : p.saved? name = some image) :
    (restore name).run p =
      ⟨.ok (), { p with current := image }, [⟨.debug, "loading buffer `" ++ name ++ "`"⟩]⟩ := by
  rw [run_restore, known]

/-- To save puts the current image under the name, -/
theorem saved?_save (p : Pipeline β ι π) (name : String) :
    ((save name).run p).state.saved? name = some p.current := by
  rw [run_save]
  exact Std.ExtTreeMap.getElem?_insert_self

variable [Backend β ι π]

/-- **and nothing else changes what stands there**, whether it succeeds or fails. -/
theorem saved?_step_of_ne (stored : p.Stored) {op : Op} (other : op ≠ .save name) :
    (op.step.run p).state.saved? name = p.saved? name := by
  cases op with
  | save name' =>
    have ne : name' ≠ name := fun same => other (congrArg Op.save same)
    rw [Op.step, run_save]
    simp [saved?, Std.ExtTreeMap.getElem?_insert, ne]
  | register | program | apply | load | present | restore =>
    exact congrArg (·[name]?) (saved_step stored (by simp))

/-! ## One operation after another -/

/-- **When something was last saved under a name**: behind the operations `before`. None of those
carried out since has saved anything there. -/
def LastSave (ops : List Op) (name : String) (before : List Op) : Prop :=
  ∃ since, ops = before ++ .save name :: since ∧ .save name ∉ since

/-- A run that saves nothing under a name leaves what stands there. -/
theorem saved?_after_of_notMem (stored : p.Stored) {ops : List Op} (unsaved : .save name ∉ ops) :
    (p.after ops).saved? name = p.saved? name := by
  induction ops generalizing p with
  | nil => rfl
  | cons op ops ih =>
    rw [List.mem_cons, not_or] at unsaved
    obtain ⟨other, unsaved⟩ := unsaved
    rw [after_cons, ih (stored_step stored op) unsaved, saved?_step_of_ne stored (Ne.symm other)]

/-- A run leaves the image under a name that was current when it was last saved there. -/
theorem saved?_after_of_lastSave (stored : p.Stored) {ops before : List Op}
    (last : LastSave ops name before) :
    (p.after ops).saved? name = some (p.after before).current := by
  obtain ⟨since, rfl, unsaved⟩ := last
  have saved := stored_step (stored_after stored before) (.save name)
  rw [after_append, after_cons, saved?_after_of_notMem saved unsaved]
  exact saved?_save _ name

theorem exists_lastSave {ops : List Op} (saved : .save name ∈ ops) :
    ∃ before, LastSave ops name before := by
  obtain ⟨before, op, since, split, rfl, unsaved⟩ :=
    exists_split_last (P := (· = .save name)) ⟨_, saved, rfl⟩
  exact ⟨before, since, split, fun again => unsaved _ again rfl⟩

theorem LastSave.mem {ops before : List Op} (last : LastSave ops name before) :
    .save name ∈ ops := by
  obtain ⟨since, rfl, -⟩ := last
  exact List.mem_append_right _ List.mem_cons_self

/-- **What stands under a name after a run**: what stood there before, or the image that was current
when it was last saved there. -/
theorem saved?_after_cases (stored : p.Stored) (ops : List Op) (name : String) :
    .save name ∉ ops ∧ (p.after ops).saved? name = p.saved? name ∨
      ∃ before, LastSave ops name before ∧
        (p.after ops).saved? name = some (p.after before).current := by
  by_cases saved : .save name ∈ ops
  · obtain ⟨before, last⟩ := exists_lastSave saved
    exact .inr ⟨before, last, saved?_after_of_lastSave stored last⟩
  · exact .inl ⟨saved, saved?_after_of_notMem stored saved⟩

/-! ## The law -/

/-- **What stands under the names** of a pipeline that was `p` when it was created and has carried out
`ops`, and what restoring makes of it. -/
structure SavedLaws (p : Pipeline β ι π) (ops : List Op) : Prop where
  /-- Under a name stands the image that was current when it was last saved there, -/
  held : ∀ name image, (p.after ops).saved? name = some image ↔
    ∃ before, LastSave ops name before ∧ (p.after before).current = image
  /-- and none if nothing was ever saved there. -/
  free : ∀ name, (p.after ops).saved? name = none ↔ .save name ∉ ops
  /-- To save always succeeds, and then the current image stands under the name. -/
  saves : ∀ name, ((save name).run (p.after ops)).result = .ok () ∧
    ((save name).run (p.after ops)).state.saved? name = some (p.after ops).current
  /-- No other operation changes what stands there, nor does saving under another name, be it that
  they succeed or fail. -/
  kept : ∀ (op : Op) (name : String), op ≠ .save name →
    (op.step.run (p.after ops)).state.saved? name = (p.after ops).saved? name
  /-- To restore fails exactly for a name under which nothing was saved, for that cause and with
  everything left as it was, -/
  unknown : ∀ name e, ((restore name).run (p.after ops)).result = .error e ↔
    .save name ∉ ops ∧ e = .unknownBuffer name
  unchanged : ∀ name, .save name ∉ ops → ((restore name).run (p.after ops)).state = p.after ops
  /-- and else succeeds and makes current what stands under the name. -/
  restored : ∀ name, .save name ∈ ops → ∃ image, (p.after ops).saved? name = some image ∧
    ((restore name).run (p.after ops)).result = .ok () ∧
    ((restore name).run (p.after ops)).state.current = image
  /-- What is saved now is restored after any operations that do not save under the name again,
  though they may restore from it. -/
  roundTrip : ∀ name since, .save name ∉ since →
    let later := (p.after ops).after (.save name :: since)
    ((restore name).run later).result = .ok () ∧
    ((restore name).run later).state.current = (p.after ops).current

private theorem savedLaws_of_stored (stored : p.Stored) (blank : ∀ name, p.saved? name = none)
    (ops : List Op) : SavedLaws p ops where
  held name image := by
    constructor
    · intro known
      obtain ⟨-, same⟩ | ⟨before, last, same⟩ := saved?_after_cases stored ops name
      · rw [same, blank] at known
        cases known
      · rw [same] at known
        exact ⟨before, last, Option.some.inj known⟩
    · rintro ⟨before, last, rfl⟩
      exact saved?_after_of_lastSave stored last
  free name := by
    obtain ⟨unsaved, same⟩ | ⟨before, last, same⟩ := saved?_after_cases stored ops name
    · exact iff_of_true (same.trans (blank name)) unsaved
    · exact iff_of_false (by simp [same]) (not_not_intro last.mem)
  saves name := by
    refine ⟨?_, saved?_save _ name⟩
    rw [run_save]
  kept op name other := saved?_step_of_ne (stored_after stored ops) other
  unknown name e := by
    obtain ⟨unsaved, same⟩ | ⟨before, last, same⟩ := saved?_after_cases stored ops name
    · rw [run_restore_of_none (same.trans (blank name))]
      simp [unsaved, eq_comm]
    · rw [run_restore_of_some same]
      simp [last.mem]
  unchanged name unsaved := by
    rw [run_restore_of_none ((saved?_after_of_notMem stored unsaved).trans (blank name))]
  restored name saved := by
    obtain ⟨before, last⟩ := exists_lastSave saved
    have known := saved?_after_of_lastSave stored last
    rw [run_restore_of_some known]
    exact ⟨_, known, rfl, rfl⟩
  roundTrip name since unsaved := by
    have last : LastSave (.save name :: since) name [] := ⟨since, rfl, unsaved⟩
    have known : ((p.after ops).after (.save name :: since)).saved? name =
        some (p.after ops).current := saved?_after_of_lastSave (stored_after stored ops) last
    simp only [run_restore_of_some known, and_self]

/-- **What is saved stands until it is saved over, and comes back whenever it is asked for**, over every
run of every pipeline and whatever fails in it. A session, be its operations carried out at once or
deferred, leaves what such a run leaves. -/
theorem savedLaws_of_create {b : β} {registry : Registry} {options : Options}
    (h : (create b registry options).result = .ok p) :
    (∀ ops, SavedLaws p ops) ∧
      ∀ script, ((Front.direct p).after script).pipeline = p.after (p.carriedOut script) := by
  refine ⟨savedLaws_of_stored (stored_of_create h) ?_, pipeline_after p⟩
  obtain ⟨image, b', l, call, rfl⟩ := exists_of_create h
  exact fun name => Std.ExtTreeMap.getElem?_empty

/-- A run in which the photo is saved twice under a name, with a draw that is refused its target and a
restore from a name without an image in between, and is restored behind a draw that succeeds. -/
theorem savedLaws_opening :
    let ops : List Op := [.register "export vec4 a()", .save "x", .load "photo", .save "x",
      .apply "a" ∅, .restore "y", .apply "a" ∅, .save "y", .restore "x"]
    let p := opening.after ops
    (create rehearsal .empty ⟨⟨4, 4⟩, .medium⟩).result = .ok opening ∧
      p.saved? "x" = some ⟨"photo", ⟨8, 6⟩⟩ ∧ p.saved? "y" = some ⟨"target#3", ⟨4, 4⟩⟩ ∧
      LastSave ops "x" (ops.take 3) ∧ SavedLaws opening ops := by
  have h : (create rehearsal .empty ⟨⟨4, 4⟩, .medium⟩).result = .ok opening := rfl
  intro ops p
  have laws := (savedLaws_of_create h).1 ops
  have last : LastSave ops "x" (ops.take 3) := ⟨ops.drop 4, rfl, by simp [ops]⟩
  refine ⟨h, ?_, ?_, last, laws⟩
  · exact (laws.held "x" _).2 ⟨_, last, by decide +kernel⟩
  · decide +kernel

end ShaderLink.Pipeline
