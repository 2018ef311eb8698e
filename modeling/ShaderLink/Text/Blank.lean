/-!
# Blank characters and trimming

Shader text is read line by line, and a line counts without the blank characters around it. Blank
are the characters with the Unicode property `White_Space`: next to the ASCII ones the next-line
and no-break characters, the typographic spaces and the two separators. Characters that merely draw
nothing (`U+200B`, `U+FEFF`) are not blank.

**The law** (`trim_pad`): trimming removes all blanks on both sides and nothing else. What it leaves
is `Trimmed` (`trimmed_trim`), and a trimmed text is left alone (`Trimmed.trim_eq`).
-/

set_option autoImplicit false

namespace ShaderLink.Text

/-- The code points with the property `White_Space`, as ranges with both ends included. -/
def blankRanges : List (Nat × Nat) :=
  [(0x09, 0x0D), (0x20, 0x20), (0x85, 0x85), (0xA0, 0xA0), (0x1680, 0x1680), (0x2000, 0x200A),
   (0x2028, 0x2029), (0x202F, 0x202F), (0x205F, 0x205F), (0x3000, 0x3000)]

/-- A character is blank iff its code point lies in one of the `blankRanges`. -/
def isBlank (c : Char) : Bool :=
  blankRanges.any fun r => r.1 ≤ c.toNat && c.toNat ≤ r.2

/-- The text without the blanks it begins with. -/
def trimStart (t : List Char) : List Char :=
  t.dropWhile isBlank

/-- The text without the blanks it ends with. -/
def trimEnd (t : List Char) : List Char :=
  (t.reverse.dropWhile isBlank).reverse

/-- The text without the blanks around it; blanks inside stay. -/
def trim (t : List Char) : List Char :=
  trimEnd (trimStart t)

/-- A trimmed text neither begins nor ends with a blank; the empty text is trimmed. -/
def Trimmed (t : List Char) : Prop :=
  (∀ c ∈ t.head?, isBlank c = false) ∧ (∀ c ∈ t.getLast?, isBlank c = false)

instance (t : List Char) : Decidable (Trimmed t) :=
  @instDecidableAnd _ _ (Option.decidableForallMem t.head?) (Option.decidableForallMem t.getLast?)

/-! ## Trimming -/

@[simp] theorem trim_nil : trim [] = [] := rfl

private theorem dropWhile_pad {p : Char → Bool} {a t : List Char} (ha : ∀ c ∈ a, p c = true) :
    (a ++ t).dropWhile p = t.dropWhile p := by
  induction a with
  | nil => rfl
  | cons c a ih =>
    rw [List.cons_append, List.dropWhile_cons_of_pos (ha c List.mem_cons_self)]
    exact ih fun d hd => ha d (List.mem_cons_of_mem _ hd)

private theorem dropWhile_of_head {p : Char → Bool} {t : List Char}
    (h : ∀ c ∈ t.head?, p c = false) : t.dropWhile p = t := by
  cases t with
  | nil => rfl
  | cons c t => exact List.dropWhile_cons_of_neg (by simp [h c rfl])

private theorem head_dropWhile {p : Char → Bool} (t : List Char) :
    ∀ c ∈ (t.dropWhile p).head?, p c = false := by
  induction t with
  | nil => simp
  | cons d t ih =>
    by_cases hd : p d = true
    · rwa [List.dropWhile_cons_of_pos hd]
    · rw [List.dropWhile_cons_of_neg hd]
      simpa using hd

theorem trimStart_pad {a : List Char} (t : List Char) (ha : ∀ c ∈ a, isBlank c = true) :
    trimStart (a ++ t) = trimStart t :=
  dropWhile_pad ha

theorem trimEnd_pad (t : List Char) {b : List Char} (hb : ∀ c ∈ b, isBlank c = true) :
    trimEnd (t ++ b) = trimEnd t := by
  simp only [trimEnd, List.reverse_append]
  rw [dropWhile_pad fun c hc => hb c (List.mem_reverse.1 hc)]

/-- A trimmed text is left alone. -/
theorem Trimmed.trim_eq {t : List Char} (h : Trimmed t) : trim t = t := by
  have hs : trimStart t = t := dropWhile_of_head h.1
  rw [trim, hs, trimEnd, dropWhile_of_head (by rw [List.head?_reverse]; exact h.2),
    List.reverse_reverse]

/-- What is trimmed at the end begins as before, unless nothing is left. -/
private theorem head_trimEnd (t : List Char) : ∀ c ∈ (trimEnd t).head?, t.head? = some c := by
  intro c hc
  have hsuf : t.reverse.dropWhile isBlank <:+ t.reverse := List.dropWhile_suffix _
  have hpre : trimEnd t <+: t := by
    have := List.reverse_prefix.2 hsuf
    rwa [List.reverse_reverse] at this
  obtain ⟨s, hs⟩ := hpre
  cases he : trimEnd t with
  | nil => rw [he] at hc; simp at hc
  | cons d u =>
    rw [he] at hc hs
    rw [← hs]
    exact hc

/-- Trimming leaves a trimmed text. -/
theorem trimmed_trim (t : List Char) : Trimmed (trim t) := by
  constructor
  · intro c hc
    exact head_dropWhile t c (head_trimEnd (trimStart t) c hc)
  · intro c hc
    rw [trim, trimEnd, List.getLast?_reverse] at hc
    exact head_dropWhile _ c hc

@[simp] theorem trim_trim (t : List Char) : trim (trim t) = trim t :=
  (trimmed_trim t).trim_eq

/-- **Blanks around a trimmed text go**, and nothing else does. -/
theorem trim_pad {a t b : List Char} (ha : ∀ c ∈ a, isBlank c = true) (ht : Trimmed t)
    (hb : ∀ c ∈ b, isBlank c = true) : trim (a ++ t ++ b) = t := by
  rw [trim, List.append_assoc, trimStart_pad _ ha]
  cases t with
  | nil =>
    have hs : trimStart ([] ++ b) = [] := by
      have h := trimStart_pad [] hb
      simpa [trimStart] using h
    rw [hs]
    rfl
  | cons c t =>
    have hs : trimStart (c :: t ++ b) = c :: t ++ b :=
      dropWhile_of_head fun d hd => ht.1 d (by simpa using hd)
    rw [hs, trimEnd_pad _ hb]
    have h := ht.trim_eq
    rwa [trim, show trimStart (c :: t) = c :: t from dropWhile_of_head ht.1] at h

end ShaderLink.Text
