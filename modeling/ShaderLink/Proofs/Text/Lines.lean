import ShaderLink.Text.Blank
import ShaderLink.Text.Lines

/-!
# Blanks at the ends of lines

Where a text is cut into lines and each line is trimmed, the two kinds of line ending and the blanks
around a line make no difference: a carriage return is a blank, so trimming takes it with the others.

**The laws**: every text is its trimmed text between blanks (`exists_trim`), blanks behind a text do
not change what trimming leaves of it (`trim_append_blanks`), the first line feed ends the first line
(`lines_append_cons`), and pieces joined by line feeds are the lines of that text if the last one is
not empty (`lines_join`).
-/

set_option autoImplicit false

namespace ShaderLink.Text

/-! ## Blanks -/

/-- Blanks behind a text go with the blanks that it ends with. -/
theorem trim_append_blanks (t : List Char) {b : List Char} (hb : ∀ c ∈ b, isBlank c = true) :
    trim (t ++ b) = trim t := by
  have hstart : trimStart b = [] := by
    have h := trimStart_pad [] hb
    rwa [List.append_nil] at h
  unfold trim
  by_cases ht : trimStart t = []
  · have happ : trimStart (t ++ b) = [] := by
      rw [trimStart, List.dropWhile_append, ← trimStart, ← trimStart, ht, hstart]
      rfl
    rw [happ, ht]
  · have happ : trimStart (t ++ b) = trimStart t ++ b := by
      rw [trimStart, List.dropWhile_append, ← trimStart, if_neg (by simpa using ht)]
    rw [happ, trimEnd_pad _ hb]

/-- A line ending of two characters is trimmed like one of one. -/
theorem trim_dropReturn (l : List Char) : trim (dropReturn l) = trim l := by
  unfold dropReturn
  split
  · next h =>
    obtain ⟨front, rfl⟩ := List.getLast?_eq_some_iff.1 h
    rw [List.dropLast_concat, trim_append_blanks]
    intro c hc
    rw [List.mem_singleton.1 hc]
    decide
  · rfl

/-- **A text is its trimmed text between blanks.** -/
theorem exists_trim (t : List Char) :
    ∃ a b, (∀ c ∈ a, isBlank c = true) ∧ (∀ c ∈ b, isBlank c = true) ∧ t = a ++ trim t ++ b := by
  have hblank : ∀ (u : List Char), ∀ c ∈ u.takeWhile isBlank, isBlank c = true :=
    fun u => List.all_eq_true.1 List.all_takeWhile
  refine ⟨t.takeWhile isBlank, ((trimStart t).reverse.takeWhile isBlank).reverse, hblank t, ?_, ?_⟩
  · intro c hc
    exact hblank _ c (List.mem_reverse.1 hc)
  · have hend : trim t ++ ((trimStart t).reverse.takeWhile isBlank).reverse = trimStart t := by
      rw [trim, trimEnd, ← List.reverse_append, List.takeWhile_append_dropWhile, List.reverse_reverse]
    rw [List.append_assoc, hend, trimStart, List.takeWhile_append_dropWhile]

/-! ## Lines -/

/-- The first line feed ends the first piece. -/
theorem pieces_append_cons {l : List Char} (t : List Char) (h : '\n' ∉ l) :
    pieces (l ++ '\n' :: t) = l :: pieces t :=
  List.splitOn_append_cons_self_of_not_mem h t

/-- No piece holds a line feed. -/
theorem not_mem_of_mem_pieces {t l : List Char} (h : l ∈ pieces t) : '\n' ∉ l := by
  by_cases ht : '\n' ∈ t
  · obtain ⟨front, rest, rfl, hfront⟩ := List.eq_append_cons_of_mem ht
    rw [pieces_append_cons rest hfront] at h
    rcases List.mem_cons.1 h with rfl | h
    · exact hfront
    · exact not_mem_of_mem_pieces h
  · rw [pieces, List.splitOn_eq_singleton ht] at h
    rw [List.mem_singleton.1 h]
    exact ht
termination_by t.length
decreasing_by
  subst_vars
  simp only [List.length_append, List.length_cons]
  omega

/-- Each piece stands in what is put together of them. -/
theorem infix_join_of_mem {ls : List (List Char)} {l : List Char} (h : l ∈ ls) : l <:+: join ls := by
  induction ls with
  | nil => cases h
  | cons k ls ih =>
    cases ls with
    | nil =>
      obtain rfl := List.mem_singleton.1 h
      simp only [join_singleton, List.infix_rfl]
    | cons m ms =>
      rw [join, List.intercalate_cons_cons, List.append_assoc]
      rcases List.mem_cons.1 h with rfl | h
      · exact (List.prefix_append l _).isInfix
      · exact (ih h).trans ((List.suffix_append _ _).trans (List.suffix_append _ _)).isInfix

/-- A piece stands in the text that it is cut from. -/
theorem infix_of_mem_pieces {t l : List Char} (h : l ∈ pieces t) : l <:+: t := by
  rw [← join_pieces t]
  exact infix_join_of_mem h

theorem dropReturn_subset (l : List Char) : dropReturn l ⊆ l := by
  unfold dropReturn
  split
  · exact List.dropLast_subset l
  · exact List.Subset.refl l

/-- No line holds a line feed. -/
theorem not_mem_of_mem_lines {t l : List Char} (h : l ∈ lines t) : '\n' ∉ l := by
  rcases List.mem_append.1 h with h | h
  · obtain ⟨p, hp, rfl⟩ := List.mem_map.1 h
    intro hc
    exact not_mem_of_mem_pieces (List.dropLast_subset _ hp) (dropReturn_subset p hc)
  · obtain ⟨hlast, -⟩ := Option.filter_eq_some_iff.1 (Option.mem_toList.1 h)
    exact not_mem_of_mem_pieces (List.mem_of_getLast? hlast)

/-- **The first line feed ends the first line.** -/
theorem lines_append_cons {l : List Char} (t : List Char) (h : '\n' ∉ l) :
    lines (l ++ '\n' :: t) = dropReturn l :: lines t := by
  obtain ⟨p, ps, hps⟩ := List.exists_cons_of_ne_nil (pieces_ne_nil t)
  rw [lines, lines, pieces_append_cons t h, hps, List.dropLast_cons_cons, List.getLast?_cons_cons,
    List.map_cons, List.cons_append]

/-- **Pieces with a line feed between each two are read back**, less a carriage return before a line
feed; the last one keeps its own. -/
theorem lines_join {ls : List (List Char)} (h : ∀ l ∈ ls, '\n' ∉ l) (hlast : ∀ l ∈ ls.getLast?, l ≠ []) :
    lines (join ls) = ls.dropLast.map dropReturn ++ ls.getLast?.toList := by
  by_cases hne : ls = []
  · subst hne
    rfl
  · have hkeep : ls.getLast?.filter (· ≠ []) = ls.getLast? := by
      cases hl : ls.getLast? with
      | none => rfl
      | some l => rw [Option.filter_some, if_pos (by simpa using hlast l hl)]
    rw [lines, pieces_join h hne, hkeep]

end ShaderLink.Text
