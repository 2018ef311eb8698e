import ShaderLink.Link.Order
import ShaderLink.Proofs.Link.Invariant

/-!
# When an entry point links, and what its order is

Linking answers a question about the registry alone. An entry point links when all that it reaches
is registered and lies on no cycle, and then the order holds exactly the modules that it reaches,
each behind its imports. Where it does not link, the error names a cause that is really there.

**The laws** (`linkOrder_exists_iff_and_ordered`, `linkOrder_error_is_diagnosis`): both are read off
the last state of the walk (`linkOrder_outcome`), which is sound.

**What it does not establish.** Of several causes linking names one, and of several orders it
returns one; which one is said by `Link.visit`.
-/

set_option autoImplicit false

namespace ShaderLink.Registry

open ShaderLink.Link

variable {r : Registry} {entry : String}

/-- **What an error of linking says** of the registry. The two other errors are none of linking. -/
def Diagnosis (r : Registry) (entry : String) : BuildError → Prop
  | .unresolvedImport n none => n = entry ∧ r.contains n = false
  | .unresolvedImport n (some p) =>
    r.contains p = true ∧ r.Reaches entry p ∧ r.Imports p n ∧ r.contains n = false
  | .circularDependency n => r.contains n = true ∧ r.Reaches entry n ∧ r.OnCycle n
  | .missingExport _ => False
  | .unsupportedExportType _ _ => False

/-- **An order for an entry point**: exactly the modules that it reaches, each once and behind all
that it imports, the entry point last. -/
structure IsLinkOrder (r : Registry) (entry : String) (order : List Module) : Prop where
  mem_iff : ∀ m, m ∈ order ↔ r.get? m.name = some m ∧ r.Reaches entry m.name
  nodup : (order.map Module.name).Nodup
  before : ∀ front m back, order = front ++ m :: back → ∀ n ∈ m.imports, ∃ d ∈ front, d.name = n
  last : ∃ m, r.get? entry = some m ∧ order.getLast? = some m

/-- A sound walk fails for the cause that it names. -/
theorem diagnosis_of_fails {w : Walk} (h : w.Sound r entry) {e : BuildError} (he : w.Fails r e) :
    r.Diagnosis entry e := by
  cases he with
  | @missing m n rest below hs hn =>
    obtain ⟨htrail, hconsumed⟩ := h.top hs
    exact ⟨contains_iff.2 ⟨m, htrail.held⟩, htrail.reaches,
      imports_of_mem htrail.held hconsumed.mem_imports, contains_eq_false_iff.2 hn⟩
  | @cycle m d rest below hs hd hmark =>
    obtain ⟨htrail, hconsumed⟩ := h.top hs
    have hstep : r.Imports m.name d.name := imports_of_mem htrail.held hconsumed.mem_imports
    refine ⟨contains_iff.2 ⟨d, hd⟩, htrail.reaches.tail hstep, ?_⟩
    -- a module that is followed leads to the topmost one, which imports it
    have hfollowed := (h.visiting _).1 hmark
    simp only [Walk.following, hs, List.map_cons, List.mem_cons, List.mem_map] at hfollowed
    rcases hfollowed with htop | ⟨f, hf, hname⟩
    · exact .single (by rwa [htop] at hstep ⊢)
    · exact .tail (hname ▸ htrail.leads f hf) hstep

/-- A list that ends in the module of the entry point holds its name. -/
private theorem entry_mem_names {m : Module} {l : List Module} (hm : r.get? entry = some m)
    (hlast : l.getLast? = some m) : entry ∈ l.map Module.name :=
  List.mem_map.2 ⟨m, List.mem_of_getLast? hlast, name_of_get? hm⟩

/-- The modules that a sound walk has placed at its end are an order for the entry point. -/
theorem isLinkOrder_of_sound {w : Walk} (h : w.Sound r entry) (hs : w.stack = []) :
    r.IsLinkOrder entry w.order.toList := by
  obtain ⟨last, hm, hlast⟩ : ∃ m, r.get? entry = some m ∧ w.order.toList.getLast? = some m := by
    cases h.stands with
    | done _ hlast => exact hlast
    | on hs' _ _ => simp [hs] at hs'
  have hheld : ∀ m ∈ w.order.toList, r.get? m.name = some m := fun m hm => (h.needed m hm).1
  refine ⟨fun m => ⟨h.needed m, fun ⟨hget, hreach⟩ => ?_⟩, h.placed_nodup, ?_, last, hm, hlast⟩
  · have hplaced := h.before.mem_names hheld (entry_mem_names hm hlast) hreach
    obtain ⟨m', hm', hname⟩ := List.mem_map.1 hplaced
    rwa [← eq_of_name_eq (hheld m' hm') hget hname]
  · intro front m back heq n hn
    exact List.mem_map.1 (h.before front m back heq n hn)

/-- **Linking orders what the entry point reaches, or it names a cause.** -/
theorem linkOrder_outcome (r : Registry) (entry : String) :
    (∃ order, r.linkOrder entry = .ok order ∧ r.IsLinkOrder entry order) ∨
      ∃ e, r.linkOrder entry = .error e ∧ r.Diagnosis entry e := by
  cases hm : r.get? entry with
  | none =>
    refine .inr ⟨.unresolvedImport entry none, ?_, rfl, contains_eq_false_iff.2 hm⟩
    simp only [linkOrder, hm]
  | some m =>
    obtain ⟨w, hruns, hlast⟩ := Walk.exists_last r (.start m)
    have hsound := (Walk.sound_start hm).of_runs hruns
    rcases hlast with ⟨hs, hrun⟩ | ⟨e, he, hrun⟩
    · refine .inl ⟨w.order.toList, ?_, isLinkOrder_of_sound hsound hs⟩
      simp only [linkOrder, hm, hrun, Except.map]
    · refine .inr ⟨e, ?_, diagnosis_of_fails hsound he⟩
      simp only [linkOrder, hm, hrun, Except.map]

theorem isLinkOrder_of_linkOrder {order : List Module} (h : r.linkOrder entry = .ok order) :
    r.IsLinkOrder entry order := by
  rcases r.linkOrder_outcome entry with ⟨order', h', horder⟩ | ⟨e, h', -⟩
  · rw [h] at h'
    cases h'
    exact horder
  · rw [h] at h'
    cases h'

theorem diagnosis_of_linkOrder {e : BuildError} (h : r.linkOrder entry = .error e) :
    r.Diagnosis entry e := by
  rcases r.linkOrder_outcome entry with ⟨order, h', -⟩ | ⟨e', h', hdiag⟩
  · rw [h] at h'
    cases h'
  · rw [h] at h'
    cases h'
    exact hdiag

/-! ## What an order says of the registry -/

namespace IsLinkOrder

variable {order : List Module}

theorem held (h : r.IsLinkOrder entry order) : ∀ m ∈ order, r.get? m.name = some m :=
  fun m hm => ((h.mem_iff m).1 hm).1

theorem importsBefore (h : r.IsLinkOrder entry order) : ImportsBefore order :=
  fun front m back heq n hn => List.mem_map.2 (h.before front m back heq n hn)

/-- All that the entry point reaches stands in the order. -/
theorem mem_names (h : r.IsLinkOrder entry order) {n : String} (hn : r.Reaches entry n) :
    n ∈ order.map Module.name := by
  obtain ⟨m, hm, hlast⟩ := h.last
  exact h.importsBefore.mem_names h.held (entry_mem_names hm hlast) hn

theorem contains (h : r.IsLinkOrder entry order) {n : String} (hn : r.Reaches entry n) :
    r.contains n = true := by
  obtain ⟨m, hm, rfl⟩ := List.mem_map.1 (h.mem_names hn)
  exact contains_iff.2 ⟨m, h.held m hm⟩

theorem not_onCycle (h : r.IsLinkOrder entry order) {n : String} (hn : r.Reaches entry n) :
    ¬ r.OnCycle n :=
  h.importsBefore.not_onCycle h.held (h.mem_names hn)

end IsLinkOrder

/-! ## Causes that are not there -/

theorem not_diagnosis_circular (hcyc : ∀ n, r.Reaches entry n → ¬ r.OnCycle n) (n : String) :
    ¬ r.Diagnosis entry (.circularDependency n) :=
  fun ⟨_, hreach, hn⟩ => hcyc n hreach hn

theorem not_diagnosis_unresolved (hall : ∀ n, r.Reaches entry n → r.contains n = true) (n : String)
    (requestedBy : Option String) : ¬ r.Diagnosis entry (.unresolvedImport n requestedBy) := by
  intro h
  cases requestedBy with
  | none =>
    obtain ⟨rfl, hn⟩ := h
    simp [hall n .refl] at hn
  | some p =>
    obtain ⟨-, hreach, himports, hn⟩ := h
    simp [hall n (hreach.tail himports)] at hn

/-- Where all that the entry point reaches is registered and off all cycles, no cause is left. -/
theorem not_diagnosis (hall : ∀ n, r.Reaches entry n → r.contains n = true)
    (hcyc : ∀ n, r.Reaches entry n → ¬ r.OnCycle n) (e : BuildError) : ¬ r.Diagnosis entry e := by
  cases e with
  | missingExport _ => exact id
  | unsupportedExportType _ _ => exact id
  | circularDependency n => exact not_diagnosis_circular hcyc n
  | unresolvedImport n requestedBy => exact not_diagnosis_unresolved hall n requestedBy

/-! ## The laws -/

/-- **An entry point links exactly when all that it reaches is registered and lies on no cycle**,
and its order is then one of exactly these modules, each once and behind all that it imports, with
the entry point last. -/
theorem linkOrder_exists_iff_and_ordered (r : Registry) (entry : String) :
    ((∃ order, r.linkOrder entry = .ok order) ↔
      r.contains entry = true ∧ (∀ n, r.Reaches entry n → r.contains n = true) ∧
        ∀ n, r.Reaches entry n → ¬ r.OnCycle n) ∧
    ∀ order, r.linkOrder entry = .ok order → r.IsLinkOrder entry order := by
  refine ⟨⟨?_, ?_⟩, fun order => isLinkOrder_of_linkOrder⟩
  · rintro ⟨order, h⟩
    have horder := isLinkOrder_of_linkOrder h
    exact ⟨horder.contains .refl, fun n => horder.contains, fun n => horder.not_onCycle⟩
  · rintro ⟨-, hall, hcyc⟩
    rcases r.linkOrder_outcome entry with ⟨order, h, -⟩ | ⟨e, -, hdiag⟩
    · exact ⟨order, h⟩
    · exact (not_diagnosis hall hcyc e hdiag).elim

/-- **An error of linking is a true diagnosis.** A missing entry point is reported exactly when it
is missing; a cycle is reported only where one is reached, and a missing import only where a name
that is reached is missing. -/
theorem linkOrder_error_is_diagnosis (r : Registry) (entry : String) :
    (∀ e, r.linkOrder entry = .error e → r.Diagnosis entry e) ∧
    (∀ n, r.linkOrder entry = .error (.unresolvedImport n none) ↔
      n = entry ∧ r.contains entry = false) ∧
    ((∀ n, r.Reaches entry n → ¬ r.OnCycle n) →
      ∀ n, r.linkOrder entry ≠ .error (.circularDependency n)) ∧
    ((∀ n, r.Reaches entry n → r.contains n = true) →
      ∀ n requestedBy, r.linkOrder entry ≠ .error (.unresolvedImport n requestedBy)) := by
  refine ⟨fun e => diagnosis_of_linkOrder, fun n => ⟨fun h => ?_, ?_⟩, fun hcyc n h => ?_,
    fun hall n requestedBy h => ?_⟩
  · obtain ⟨rfl, hn⟩ := diagnosis_of_linkOrder h
    exact ⟨rfl, hn⟩
  · rintro ⟨rfl, hn⟩
    simp only [linkOrder, contains_eq_false_iff.1 hn]
  · exact not_diagnosis_circular hcyc n (diagnosis_of_linkOrder h)
  · exact not_diagnosis_unresolved hall n requestedBy (diagnosis_of_linkOrder h)

end ShaderLink.Registry
