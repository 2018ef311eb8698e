import ShaderLink.Text.Blank

/-!
# Annotated lines

A module's text is shader source in which a line may begin with a directive: what the module
exports, which other module it imports, or one more overload of its export. `Line.read` decides
which kind a line is, `Line.kept` says what of it reaches the program.

**The law** (`read_spelled`): a proper line, spelled with blanks around it and behind its keyword,
is read back as the line it is. A keyword ends in a space, so a keyword alone on its line, which
trimming has shortened, is no directive.
-/

set_option autoImplicit false

namespace ShaderLink

/-- One line of a module's text, without the blanks around it and around its keyword. -/
inductive Line
  /-- Nothing but blanks. -/
  | blank
  /-- The module depends on the module that exports `name`. -/
  | imports (name : List Char)
  /-- The declaration of the function that other modules import. -/
  | exports (declaration : List Char)
  /-- The same function for other arguments. -/
  | overloads (declaration : List Char)
  /-- Shader source. -/
  | plain (text : List Char)
  deriving DecidableEq, Repr

namespace Line

/-- Starts the line of an export. -/
def exportKeyword : String := "export "

/-- Starts the line of an import. -/
def importKeyword : String := "import "

/-- Starts the line of an overload. -/
def overloadKeyword : String := "overload "

/-- What follows `keyword` in a text that starts with it, without blanks around. -/
def after? (keyword : String) (text : List Char) : Option (List Char) :=
  if keyword.toList.isPrefixOf text then some (Text.trim (text.drop keyword.toList.length))
  else none

/-- The line that a trimmed text is. -/
def ofTrimmed (text : List Char) : Line :=
  if text = [] then .blank
  else if let some declaration := after? exportKeyword text then .exports declaration
  else if let some name := after? importKeyword text then .imports name
  else if let some declaration := after? overloadKeyword text then .overloads declaration
  else .plain text

/-- Reads one line of text. -/
def read (raw : List Char) : Line :=
  ofTrimmed (Text.trim raw)

/-- The source that a line brings into the program: a directive gives up its keyword, an import its
whole line. -/
def kept : Line → List Char
  | blank => []
  | imports _ => []
  | exports declaration => declaration
  | overloads declaration => declaration
  | plain text => text

/-- The name that a line imports. -/
def imported? : Line → Option (List Char)
  | imports name => some name
  | _ => none

/-- The declaration that a line exports. -/
def exported? : Line → Option (List Char)
  | exports declaration => some declaration
  | _ => none

/-- A keyword, blanks and what stands behind them. -/
def directive (keyword : String) (pad text : List Char) : List Char :=
  keyword.toList ++ (pad ++ text)

/-- The text of a line; in a directive `pad` stands between the keyword and what follows it. -/
def spelled (pad : List Char) : Line → List Char
  | blank => []
  | imports name => directive "import " pad name
  | exports declaration => directive "export " pad declaration
  | overloads declaration => directive "overload " pad declaration
  | plain text => text

/-- A proper line carries a text, and that text stands on one line, without blanks around; plain
source starts with no keyword. -/
def Proper : Line → Prop
  | blank => True
  | imports t | exports t | overloads t => t ≠ [] ∧ Text.Trimmed t ∧ '\n' ∉ t
  | plain t => t ≠ [] ∧ Text.Trimmed t ∧ '\n' ∉ t ∧
      ∀ k ∈ ["export ", "import ", "overload "], ¬ k.toList <+: t

instance (l : Line) : Decidable l.Proper := by
  cases l <;> unfold Proper <;> infer_instance

/-! ## Reading what is written -/

theorem after?_eq_some_iff {keyword : String} {text rest : List Char} :
    after? keyword text = some rest ↔ ∃ r, text = keyword.toList ++ r ∧ Text.trim r = rest := by
  rw [after?]
  split
  · next h =>
    obtain ⟨r, rfl⟩ := List.isPrefixOf_iff_prefix.1 h
    simp only [List.drop_left, Option.some.injEq, List.append_cancel_left_eq, exists_eq_left']
  · next h =>
    refine ⟨(nomatch ·), fun ⟨r, hr, _⟩ => (h ?_).elim⟩
    exact List.isPrefixOf_iff_prefix.2 ⟨r, hr.symm⟩

theorem after?_eq_none_iff {keyword : String} {text : List Char} :
    after? keyword text = none ↔ ¬ keyword.toList <+: text := by
  rw [after?, ← List.isPrefixOf_iff_prefix]
  split <;> simp_all

/-- Behind its keyword a directive shows what it was written with, without the blanks. -/
theorem after?_directive {keyword : String} {pad t : List Char}
    (hp : ∀ c ∈ pad, Text.isBlank c = true) (ht : Text.Trimmed t) :
    after? keyword (directive keyword pad t) = some t := by
  have h : Text.trim (pad ++ t) = t := by
    have := Text.trim_pad (b := []) hp ht (by simp)
    rwa [List.append_nil] at this
  exact after?_eq_some_iff.2 ⟨_, rfl, h⟩

/-- A text behind a keyword and blanks, as a trimmed line, is that directive. -/
theorem ofTrimmed_exports {pad d : List Char} (hp : ∀ c ∈ pad, Text.isBlank c = true)
    (hd : Text.Trimmed d) : ofTrimmed (directive "export " pad d) = .exports d := by
  rw [ofTrimmed, if_neg (by simp [directive]), exportKeyword, after?_directive hp hd]

@[inherit_doc ofTrimmed_exports]
theorem ofTrimmed_imports {pad n : List Char} (hp : ∀ c ∈ pad, Text.isBlank c = true)
    (hn : Text.Trimmed n) : ofTrimmed (directive "import " pad n) = .imports n := by
  have h1 : after? exportKeyword (directive "import " pad n) = none := rfl
  rw [ofTrimmed, if_neg (by simp [directive]), h1, importKeyword, after?_directive hp hn]

@[inherit_doc ofTrimmed_exports]
theorem ofTrimmed_overloads {pad d : List Char} (hp : ∀ c ∈ pad, Text.isBlank c = true)
    (hd : Text.Trimmed d) : ofTrimmed (directive "overload " pad d) = .overloads d := by
  have h1 : after? exportKeyword (directive "overload " pad d) = none := rfl
  have h2 : after? importKeyword (directive "overload " pad d) = none := rfl
  rw [ofTrimmed, if_neg (by simp [directive]), h1, h2, overloadKeyword, after?_directive hp hd]

/-- A text that starts with no keyword is plain source. -/
theorem ofTrimmed_plain {t : List Char} (ht : t ≠ [])
    (hk : ∀ k ∈ ["export ", "import ", "overload "], ¬ k.toList <+: t) :
    ofTrimmed t = .plain t := by
  have hk' : ∀ k ∈ ["export ", "import ", "overload "], after? k t = none :=
    fun k hmem => after?_eq_none_iff.2 (hk k hmem)
  rw [ofTrimmed, if_neg ht, exportKeyword, importKeyword, overloadKeyword, hk' _ (by simp),
    hk' _ (by simp), hk' _ (by simp)]

/-- Behind a keyword a trimmed text that is not empty ends the line as it ends itself. -/
private theorem trimmed_behind {c : Char} {k t : List Char} (hc : Text.isBlank c = false)
    (pad : List Char) (ht : t ≠ []) (h : Text.Trimmed t) :
    Text.Trimmed (c :: k ++ (pad ++ t)) := by
  refine ⟨fun d hd => ?_, fun d hd => h.2 d ?_⟩
  · obtain rfl : c = d := Option.some.inj hd
    exact hc
  · rw [← List.append_assoc, List.getLast?_append, List.getLast?_eq_some_getLast ht,
      Option.some_or] at hd
    rwa [List.getLast?_eq_some_getLast ht]

theorem Proper.trimmed_spelled {l : Line} (h : l.Proper) (pad : List Char) :
    Text.Trimmed (l.spelled pad) := by
  cases l with
  | blank => exact ⟨by simp [spelled], by simp [spelled]⟩
  | imports t => exact trimmed_behind (c := 'i') (by decide) pad h.1 h.2.1
  | exports t => exact trimmed_behind (c := 'e') (by decide) pad h.1 h.2.1
  | overloads t => exact trimmed_behind (c := 'o') (by decide) pad h.1 h.2.1
  | plain t => exact h.2.1

/-- **A proper line is read back** from its text with blanks around it and behind its keyword. -/
theorem read_spelled {l : Line} (h : l.Proper) {a pad b : List Char}
    (ha : ∀ c ∈ a, Text.isBlank c = true) (hp : ∀ c ∈ pad, Text.isBlank c = true)
    (hb : ∀ c ∈ b, Text.isBlank c = true) : read (a ++ l.spelled pad ++ b) = l := by
  rw [read, Text.trim_pad ha (h.trimmed_spelled pad) hb]
  cases l with
  | blank => rfl
  | imports t => exact ofTrimmed_imports hp h.2.1
  | exports t => exact ofTrimmed_exports hp h.2.1
  | overloads t => exact ofTrimmed_overloads hp h.2.1
  | plain t => exact ofTrimmed_plain h.1 h.2.2.2

end Line

end ShaderLink
