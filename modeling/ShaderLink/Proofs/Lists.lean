import Mathlib.Data.List.Induction
import Mathlib.Data.List.Nodup

/-!
# Lists

Facts about lists as they come up where something is added at the end of one: where a list can then
be split, which element of a kind stands there last, and which elements stand there for the first time.
-/

set_option autoImplicit false

namespace ShaderLink

/-- A list with one more at the end is split there, or before. -/
theorem split_concat {α : Type} {l front back : List α} {a x : α}
    (h : l ++ [x] = front ++ a :: back) :
    (back = [] ∧ a = x ∧ l = front) ∨ ∃ back', back = back' ++ [x] ∧ l = front ++ a :: back' := by
  rcases List.eq_nil_or_concat back with rfl | ⟨back', z, rfl⟩
  · obtain ⟨hl, hx⟩ := List.append_inj' h rfl
    exact .inl ⟨rfl, (List.cons.inj hx).1.symm, hl⟩
  · rw [List.concat_eq_append, ← List.cons_append, ← List.append_assoc] at h
    obtain ⟨hl, hx⟩ := List.append_inj' h rfl
    exact .inr ⟨back', by rw [List.concat_eq_append, hx], hl⟩

/-- A list that holds something of a kind is split where the last of that kind stands. -/
theorem exists_split_last {α : Type} {P : α → Prop} {l : List α} (h : ∃ a ∈ l, P a) :
    ∃ front a back, l = front ++ a :: back ∧ P a ∧ ∀ b ∈ back, ¬ P b := by
  induction l using List.reverseRecOn with
  | nil => simp at h
  | append_singleton l x ih =>
    by_cases hx : P x
    · exact ⟨l, x, [], rfl, hx, nofun⟩
    · obtain ⟨a, ha, hP⟩ := h
      have before : a ∈ l := by
        rcases List.mem_append.1 ha with ha | ha
        · exact ha
        · exact (hx (List.mem_singleton.1 ha ▸ hP)).elim
      obtain ⟨front, a, back, rfl, hP, hback⟩ := ih ⟨a, before, hP⟩
      refine ⟨front, a, back ++ [x], by simp, hP, ?_⟩
      rw [List.forall_mem_append, List.forall_mem_singleton]
      exact ⟨hback, hx⟩

/-! ## First occurrences -/

section FirstOccurrences

variable {α : Type} [BEq α] [LawfulBEq α] {l : List α} {a : α}

theorem removeAll_eq_nil {k : List α} (h : k ⊆ l) : k.removeAll l = [] := by
  rw [List.removeAll, List.filter_eq_nil_iff]
  intro a ha
  simp [h ha]

/-- An element that stands in the list already is left out, -/
theorem eraseDups_concat_of_mem (h : a ∈ l) : (l ++ [a]).eraseDups = l.eraseDups := by
  rw [List.eraseDups_append, removeAll_eq_nil (by simpa using h), List.eraseDups_nil,
    List.append_nil]

/-- and a new one stays where it is. -/
theorem eraseDups_concat_of_notMem (h : a ∉ l) : (l ++ [a]).eraseDups = l.eraseDups ++ [a] := by
  have all : [a].removeAll l = [a] := by simp [List.removeAll, h]
  rw [List.eraseDups_append, all]
  rfl

/-- What is left stands in the order in which it came up first. -/
theorem pairwise_idxOf_eraseDups (l : List α) :
    l.eraseDups.Pairwise fun a b => l.idxOf a < l.idxOf b := by
  induction l using List.reverseRecOn with
  | nil => exact .nil
  | append_singleton l x ih =>
    have before : l.eraseDups.Pairwise fun a b => (l ++ [x]).idxOf a < (l ++ [x]).idxOf b := by
      refine ih.imp_of_mem fun {a b} ha hb h => ?_
      rwa [List.idxOf_append_of_mem (List.mem_eraseDups.1 ha),
        List.idxOf_append_of_mem (List.mem_eraseDups.1 hb)]
    by_cases h : x ∈ l
    · rwa [eraseDups_concat_of_mem h]
    · rw [eraseDups_concat_of_notMem h]
      refine List.pairwise_append.2 ⟨before, List.pairwise_singleton _ _, fun a ha b hb => ?_⟩
      have ha := List.mem_eraseDups.1 ha
      rw [List.mem_singleton.1 hb, List.idxOf_append_of_mem ha, List.idxOf_append_of_notMem h]
      exact Nat.lt_of_lt_of_le (List.idxOf_lt_length_of_mem ha) (Nat.le_add_right _ _)

theorem nodup_eraseDups (l : List α) : l.eraseDups.Nodup := by
  induction l using List.reverseRecOn with
  | nil => exact List.nodup_nil
  | append_singleton l a ih =>
    by_cases h : a ∈ l
    · rw [eraseDups_concat_of_mem h]
      exact ih
    · rw [eraseDups_concat_of_notMem h, List.nodup_append_comm]
      exact List.nodup_cons.2 ⟨fun h' => h (List.mem_eraseDups.1 h'), ih⟩

theorem eraseDups_of_nodup (h : l.Nodup) : l.eraseDups = l := by
  induction l using List.reverseRecOn with
  | nil => rfl
  | append_singleton l a ih =>
    have front : (a :: l).Nodup := List.nodup_append_comm.1 h
    obtain ⟨new, rest⟩ := List.nodup_cons.1 front
    rw [eraseDups_concat_of_notMem new, ih rest]

/-- Elements can be dropped before repetitions are removed. -/
theorem eraseDups_filter (p : α → Bool) (l : List α) :
    (l.filter p).eraseDups = l.eraseDups.filter p := by
  induction l using List.reverseRecOn with
  | nil => rfl
  | append_singleton l a ih =>
    rw [List.filter_append]
    cases hp : p a with
    | false =>
      rw [List.filter_cons_of_neg (by simp [hp]), List.filter_nil, List.append_nil, ih]
      by_cases h : a ∈ l
      · rw [eraseDups_concat_of_mem h]
      · rw [eraseDups_concat_of_notMem h, List.filter_append,
          List.filter_cons_of_neg (by simp [hp]), List.filter_nil, List.append_nil]
    | true =>
      rw [List.filter_cons_of_pos hp, List.filter_nil]
      by_cases h : a ∈ l
      · rw [eraseDups_concat_of_mem (List.mem_filter.2 ⟨h, hp⟩), eraseDups_concat_of_mem h, ih]
      · have new : a ∉ l.filter p := fun h' => h (List.mem_filter.1 h').1
        rw [eraseDups_concat_of_notMem new, eraseDups_concat_of_notMem h, List.filter_append,
          List.filter_cons_of_pos hp, List.filter_nil, ih]

/-- It does not matter whether repetitions are removed from the second part beforehand, -/
theorem eraseDups_append_eraseDups (l k : List α) :
    (l ++ k.eraseDups).eraseDups = (l ++ k).eraseDups := by
  simp only [List.eraseDups_append, List.removeAll, eraseDups_filter,
    eraseDups_of_nodup (nodup_eraseDups k)]

/-- or from the first. -/
theorem eraseDups_eraseDups_append (l k : List α) :
    (l.eraseDups ++ k).eraseDups = (l ++ k).eraseDups := by
  have same : k.removeAll l.eraseDups = k.removeAll l :=
    List.filter_congr fun a _ => by simp [List.mem_eraseDups]
  rw [List.eraseDups_append, List.eraseDups_append, same, eraseDups_of_nodup (nodup_eraseDups l)]

end FirstOccurrences

end ShaderLink
