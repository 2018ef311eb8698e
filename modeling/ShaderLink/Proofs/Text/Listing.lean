import ShaderLink.Proofs.Text.Lines
import ShaderLink.Text.Listing

/-!
# What a listing keeps of its text

A listing shows each line of a text behind its number, and each row of it ends in a line feed. Lines hold
no line feeds and numbers hold no colons, so a listing can be taken apart again: cut at the line feeds
into its rows, and each row behind its first colon and space.

**The law** (`listing_keeps_lines`): the rows of a listing are numbered from one in decimal, each number
moved right to five columns or written in full where it is longer, and behind the numbers stand the lines
as they are. So texts have the same listing exactly if they have the same lines.

**What it does not establish.** Texts that differ in their line endings alone have the same lines, and so
the same listing.
-/

set_option autoImplicit false

namespace ShaderLink.Text

/-! ## Numerals -/

/-- **A decimal numeral** of a number above zero: digits that do not begin with a zero, worth the number
by their places. -/
structure Numeral (n : Nat) (digits : List Char) : Prop where
  digit : ∀ c ∈ digits, c.isDigit = true
  first : digits.head? ≠ some '0'
  value : Nat.ofDigitChars 10 digits 0 = n

private theorem digitChar_ne_zero : ∀ d < 10, 0 < d → d.digitChar ≠ '0' := by decide

/-- The digits of a number above zero do not begin with a zero. -/
theorem head?_toDigits_ne_zero {n : Nat} (pos : 0 < n) : (Nat.toDigits 10 n).head? ≠ some '0' := by
  induction n using Nat.strongRecOn with
  | ind n ih =>
    rw [Nat.toDigits_eq_if (by decide)]
    split
    · next lt =>
      rw [List.head?_cons, Ne, Option.some_inj]
      exact digitChar_ne_zero n lt pos
    · next ge =>
      -- the first digit is that of the number without its last one
      have front := ih (n / 10) (by omega) (by omega)
      obtain ⟨c, cs, split⟩ := List.exists_cons_of_ne_nil (Nat.toDigits_ne_nil (b := 10) (n := n / 10))
      rw [split] at front ⊢
      exact front

theorem numeral_toDigits {n : Nat} (pos : 0 < n) : Numeral n (Nat.toDigits 10 n) where
  digit _ hc := Nat.isDigit_of_mem_toDigits (by decide) (by decide) hc
  first := head?_toDigits_ne_zero pos
  value := Nat.ofDigitChars_ten_toDigits

variable {n : Nat} {line row : List Char}

/-- Spaces before a numeral and its digits are all that a number shows. -/
theorem Numeral.mem_padded {digits : List Char} (h : Numeral n digits) {k : Nat} {c : Char}
    (hc : c ∈ List.replicate k ' ' ++ digits) : c = ' ' ∨ c.isDigit = true := by
  rcases List.mem_append.1 hc with hc | hc
  · exact .inl (List.eq_of_mem_replicate hc)
  · exact .inr (h.digit c hc)

/-! ## Rows -/

/-- **A row of a listing**: the numeral of a line's number behind the spaces that it leaves of five
columns, a colon and a space, then the line. -/
def IsRow (n : Nat) (line row : List Char) : Prop :=
  ∃ digits, Numeral n digits ∧
    row = List.replicate (5 - digits.length) ' ' ++ digits ++ ':' :: ' ' :: line

theorem isRow_numbered (pos : 0 < n) (line : List Char) : IsRow n line (numbered n line) := by
  refine ⟨Nat.toDigits 10 n, numeral_toDigits pos, ?_⟩
  simp only [numbered, lineNumber, List.leftpad, List.append_assoc, List.cons_append, List.nil_append]

/-- A row holds a line feed only if its line does. -/
theorem IsRow.not_mem (h : IsRow n line row) (hline : '\n' ∉ line) : '\n' ∉ row := by
  obtain ⟨digits, numeral, rfl⟩ := h
  intro hc
  rcases List.mem_append.1 hc with hc | hc
  · exact absurd (numeral.mem_padded hc) (by decide)
  · simp [hline] at hc

/-- What stands behind the first `mark` of a text. -/
def behind? (mark : List Char) : List Char → Option (List Char)
  | [] => none
  | c :: text =>
    if mark.isPrefixOf (c :: text) then some ((c :: text).drop mark.length) else behind? mark text

/-- A mark does not stand before its first character does. -/
theorem behind?_append {c : Char} {mark front rest : List Char} (h : c ∉ front) :
    behind? (c :: mark) (front ++ (c :: mark ++ rest)) = some rest := by
  induction front with
  | nil => simp [behind?]
  | cons d front ih =>
    obtain ⟨hd, hfront⟩ : c ≠ d ∧ c ∉ front := by simpa using h
    rw [List.cons_append, behind?, List.isPrefixOf_cons_cons, beq_eq_false_iff_ne.2 hd, Bool.false_and,
      if_neg Bool.false_ne_true]
    exact ih hfront

/-- **A row is cut behind its number**, whatever its line holds. -/
theorem IsRow.behind?_eq (h : IsRow n line row) : behind? ": ".toList row = some line := by
  obtain ⟨digits, numeral, rfl⟩ := h
  exact behind?_append fun hc => absurd (numeral.mem_padded hc) (by decide)

/-! ## Listings -/

/-- **The rows of a text's listing**: one for each of its lines, in their order, and each of them shows
its line behind its first colon and space. -/
structure ListsLines (t : List Char) (rows : List (List Char)) : Prop where
  length : rows.length = (lines t).length
  row : ∀ i line, (lines t)[i]? = some line → ∃ row, rows[i]? = some row ∧ IsRow (i + 1) line row
  behind : rows.map (behind? ": ".toList) = (lines t).map some

theorem listsLines_rows (t : List Char) : ListsLines t (rows t) where
  length := length_rows t
  row i line h := ⟨numbered (i + 1) line, by rw [getElem?_rows, h, Option.map_some],
    isRow_numbered i.succ_pos line⟩
  behind := by
    refine List.ext_getElem? fun i => ?_
    rw [List.getElem?_map, getElem?_rows, List.getElem?_map, Option.map_map]
    refine Option.map_congr fun line _ => ?_
    exact (isRow_numbered i.succ_pos line).behind?_eq

/-- A listing cut at its line feeds is its rows, with nothing behind the last. -/
theorem pieces_listing (source : String) :
    pieces (listing source).toList = rows source.toList ++ [[]] := by
  rw [listing, String.toList_ofList]
  refine pieces_terminated fun row hrow => ?_
  obtain ⟨i, hi⟩ := List.mem_iff_getElem?.1 hrow
  rw [getElem?_rows] at hi
  obtain ⟨line, hline, rfl⟩ := Option.map_eq_some_iff.1 hi
  exact (isRow_numbered i.succ_pos line).not_mem (not_mem_of_mem_lines (List.mem_of_getElem? hline))

/-- **A listing keeps the lines of its text**: it is a row for each of them, numbered from one, and an
empty piece behind the last line feed, so that texts have one listing exactly if they have one list of
lines. -/
theorem listing_keeps_lines :
    (∀ source : String, ∃ rows,
      pieces (listing source).toList = rows ++ [[]] ∧ ListsLines source.toList rows) ∧
    ∀ source other : String,
      listing source = listing other ↔ lines source.toList = lines other.toList := by
  refine ⟨fun source => ⟨_, pieces_listing source, listsLines_rows source.toList⟩,
    fun source other => ⟨fun same => ?_, fun same => by rw [listing, listing, rows, rows, same]⟩⟩
  have same_rows : rows source.toList = rows other.toList := by
    apply List.append_cancel_right
    rw [← pieces_listing, ← pieces_listing, same]
  have behind := (listsLines_rows source.toList).behind
  rw [same_rows, (listsLines_rows other.toList).behind] at behind
  exact (List.map_inj_right fun _ _ => Option.some.inj).1 behind.symm

example : listing "a\n\r\r\n 7: x\r" = "    1: a\n    2: \r\n    3:  7: x\r\n" := by decide

end ShaderLink.Text
