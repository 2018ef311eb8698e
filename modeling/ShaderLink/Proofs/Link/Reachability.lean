import Mathlib.Data.List.Basic
import Mathlib.Logic.Relation
import ShaderLink.Registry

/-!
# Reachability along imports

What an entry point needs is a matter of the registry alone: the names that it reaches by following
the imports of registered modules. A name that is imported need not be registered, and then nothing
lies behind it.

**The laws** are about lists in which each module stands behind all of its imports: such a list
holds all that its members reach (`ImportsBefore.mem_names`), and none of its members lies on a
cycle (`ImportsBefore.not_onCycle`). How linking finds such a list does not enter here.
-/

set_option autoImplicit false

namespace ShaderLink.Registry

variable {r : Registry} {a b n : String} {m : Module}

/-- The module registered as `a` imports `b`. -/
def Imports (r : Registry) (a b : String) : Prop :=
  ∃ m, r.get? a = some m ∧ b ∈ m.imports

/-- `b` is `a`, or is found behind it along imports. -/
def Reaches (r : Registry) : String → String → Prop :=
  Relation.ReflTransGen r.Imports

/-- `n` is found behind itself, along one import or more. -/
def OnCycle (r : Registry) (n : String) : Prop :=
  Relation.TransGen r.Imports n n

theorem contains_iff : r.contains n = true ↔ ∃ m, r.get? n = some m := by
  rw [contains_eq_isSome, Option.isSome_iff_exists]

theorem contains_eq_false_iff : r.contains n = false ↔ r.get? n = none := by
  rw [contains_eq_isSome, Option.isSome_eq_false_iff, Option.isNone_iff_eq_none]

theorem imports_iff (h : r.get? a = some m) : r.Imports a b ↔ b ∈ m.imports := by
  constructor
  · rintro ⟨m', hm', hb⟩
    rw [h] at hm'
    cases hm'
    exact hb
  · intro hb
    exact ⟨m, h, hb⟩

/-- A module imports by its own name. -/
theorem imports_of_mem (h : r.get? m.name = some m) (hb : b ∈ m.imports) : r.Imports m.name b :=
  ⟨m, h, hb⟩

/-- A module is held under one name only. -/
theorem eq_of_name_eq {m' : Module} (h : r.get? m.name = some m) (h' : r.get? m'.name = some m')
    (hn : m.name = m'.name) : m = m' := by
  rw [hn, h'] at h
  exact (Option.some.inj h).symm

end ShaderLink.Registry

namespace ShaderLink.Link

variable {r : Registry} {l : List Module} {m : Module}

/-- Each module of the list stands behind all that it imports. -/
def ImportsBefore (l : List Module) : Prop :=
  ∀ front d back, l = front ++ d :: back → ∀ n ∈ d.imports, n ∈ front.map Module.name

theorem importsBefore_nil : ImportsBefore [] := by
  intro front d back h
  simp at h

/-- A module whose imports stand in the list may follow it. -/
theorem ImportsBefore.concat (h : ImportsBefore l) (hm : ∀ n ∈ m.imports, n ∈ l.map Module.name) :
    ImportsBefore (l ++ [m]) := by
  intro front d back heq n hn
  -- the split falls into the old list, unless nothing stands behind it
  rcases List.eq_nil_or_concat back with rfl | ⟨back', z, rfl⟩
  · obtain ⟨rfl, hd⟩ := List.append_inj' heq rfl
    cases hd
    exact hm n hn
  · have hsplit : l ++ [m] = (front ++ d :: back') ++ [z] := by
      rw [heq]
      simp
    obtain ⟨hl, -⟩ := List.append_inj' hsplit rfl
    exact h front d back' hl n hn

/-- What a module of the list imports stands in the list. -/
theorem ImportsBefore.closed (h : ImportsBefore l) (hheld : ∀ d ∈ l, r.get? d.name = some d)
    {a b : String} (ha : a ∈ l.map Module.name) (hab : r.Imports a b) : b ∈ l.map Module.name := by
  obtain ⟨d, hd, rfl⟩ := List.mem_map.1 ha
  obtain ⟨front, back, rfl⟩ := List.append_of_mem hd
  rw [List.map_append]
  exact List.mem_append_left _
    (h front d back rfl b ((Registry.imports_iff (hheld d hd)).1 hab))

/-- **The list holds all that its members reach.** -/
theorem ImportsBefore.mem_names (h : ImportsBefore l) (hheld : ∀ d ∈ l, r.get? d.name = some d)
    {a b : String} (ha : a ∈ l.map Module.name) (hab : r.Reaches a b) : b ∈ l.map Module.name := by
  induction hab with
  | refl => exact ha
  | tail _ hstep ih => exact h.closed hheld ih hstep

/-- An import leads to an earlier place of the list. -/
theorem ImportsBefore.idxOf_lt (h : ImportsBefore l) (hheld : ∀ d ∈ l, r.get? d.name = some d)
    {a b : String} (ha : a ∈ l.map Module.name) (hab : r.Imports a b) :
    (l.map Module.name).idxOf b < (l.map Module.name).idxOf a := by
  obtain ⟨names, names', hnames, hfirst⟩ := List.eq_append_cons_of_mem ha
  obtain ⟨front, rest, rfl, rfl, hrest⟩ := List.map_eq_append_iff.1 hnames
  obtain ⟨d, back, rfl, rfl, -⟩ := List.map_eq_cons_iff.1 hrest
  have hd : r.get? d.name = some d := hheld d (by simp)
  have hb : b ∈ front.map Module.name := h front d back rfl b ((Registry.imports_iff hd).1 hab)
  rw [hnames, List.idxOf_append_of_mem hb, List.idxOf_append_of_notMem hfirst, List.idxOf_cons_self]
  exact List.idxOf_lt_length_of_mem hb

/-- **Modules in an order lie on no cycle**: along imports the places in the list only fall. -/
theorem ImportsBefore.not_onCycle (h : ImportsBefore l) (hheld : ∀ d ∈ l, r.get? d.name = some d)
    {n : String} (hn : n ∈ l.map Module.name) : ¬ r.OnCycle n := by
  intro hcyc
  have hfall : ∀ {b : String}, Relation.TransGen r.Imports n b →
      b ∈ l.map Module.name ∧ (l.map Module.name).idxOf b < (l.map Module.name).idxOf n := by
    intro b hb
    induction hb with
    | single hstep => exact ⟨h.closed hheld hn hstep, h.idxOf_lt hheld hn hstep⟩
    | tail _ hstep ih =>
      exact ⟨h.closed hheld ih.1 hstep, Nat.lt_trans (h.idxOf_lt hheld ih.1 hstep) ih.2⟩
  exact Nat.lt_irrefl _ (hfall hcyc).2

end ShaderLink.Link
