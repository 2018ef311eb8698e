import ShaderLink.Proofs.Module.Spelling

/-!
# Names in the text of a module

A module is named by its text twice: by what its export declares, which stays in its body, and on the
lines of other texts that import it. The two names are cut out of their lines in different ways, the one
by the first space and the first parenthesis behind a keyword, the other by its keyword alone. Both are
trimmed, and that is why they agree.

**The laws**: a name that is exported stands in the body (`infix_name_body`) and can be imported
(`importName`), a line that asks for such a name is read as its import (`read_of_asks`), and that import
stands where its line stands among the lines that import (`getElem?_imports_of_parse`).

Lines are told by their keywords alone, so that pieces between line feeds may be counted in place of
lines (`filterMap_readLines`).
-/

set_option autoImplicit false

namespace ShaderLink

/-! ## Names that are exported -/

/-- What a declaration calls its function stands in the declaration. -/
theorem Declaration.infix_name_ofText (text : List Char) :
    (ofText text).name.toList <:+: text := by
  have part : namePart text <:+: text := by
    rw [namePart_eq]
    exact (List.drop_suffix _ _).isInfix.trans (List.take_prefix _ _).isInfix
  obtain ⟨front, back, -, -, split⟩ := Text.exists_trim (namePart text)
  have trimmed : Text.trim (namePart text) <:+: namePart text := ⟨front, back, split.symm⟩
  rw [ofText, String.toList_ofList]
  exact trimmed.trans part

/-- What a declaration on one line calls its function can be imported, if it is called anything. -/
theorem Declaration.importName_ofText {text : List Char} (oneLine : '\n' ∉ text)
    (named : (ofText text).name ≠ "") : Module.ImportName (ofText text).name.toList := by
  refine ⟨fun empty => named (String.toList_eq_nil_iff.1 empty), ?_, fun feed => ?_⟩
  · rw [ofText, String.toList_ofList]
    exact Text.trimmed_trim _
  · exact oneLine ((infix_name_ofText text).subset feed)

namespace Module.WellFormed

variable {m : Module}

theorem exists_name_eq (h : m.WellFormed) :
    ∃ line ∈ m.bodyLines, m.name = (Declaration.ofText line).name := by
  obtain ⟨line, hline, -, declares⟩ := h.declared
  exact ⟨line, hline, by rw [declares, declaration]⟩

/-- **A module's name stands in its body**: one line of the body declares it. -/
theorem infix_name_body (h : m.WellFormed) : m.name.toList <:+: m.body.toList := by
  obtain ⟨line, hline, hname⟩ := h.exists_name_eq
  rw [hname]
  exact (Declaration.infix_name_ofText line).trans (Text.infix_of_mem_pieces hline)

/-- **A name that is exported can be imported.** -/
theorem importName (h : m.WellFormed) (named : m.name ≠ "") : ImportName m.name.toList := by
  obtain ⟨line, hline, hname⟩ := h.exists_name_eq
  rw [hname] at named ⊢
  exact Declaration.importName_ofText (Text.not_mem_of_mem_pieces hline) named

/-- No name that is imported is empty. -/
theorem empty_notMem_imports (h : m.WellFormed) : "" ∉ m.imports :=
  fun mem => (h.imports "" mem).1 rfl

end Module.WellFormed

/-! ## Lines by their keywords -/

namespace Line

variable {raw name : List Char}

/-- Whether a line starts with a keyword, blanks aside. -/
def startsWith (keyword : String) (raw : List Char) : Bool :=
  keyword.toList.isPrefixOf (Text.trim raw)

/-- **A line that asks for a name**: the keyword of an import and the name behind it, with blanks
around them. -/
def Asks (raw name : List Char) : Prop :=
  ∃ a pad b, (∀ c ∈ a ++ pad ++ b, Text.isBlank c = true) ∧
    raw = a ++ "import ".toList ++ pad ++ name ++ b

theorem isSome_after? (keyword : String) (text : List Char) :
    (after? keyword text).isSome = keyword.toList.isPrefixOf text := by
  rw [after?]
  cases keyword.toList.isPrefixOf text <;> rfl

/-- A line exports what follows the keyword of an export, -/
theorem exported?_ofTrimmed (text : List Char) :
    (ofTrimmed text).exported? = after? exportKeyword text := by
  by_cases empty : text = []
  · subst empty
    rfl
  rw [ofTrimmed, if_neg empty]
  cases after? exportKeyword text with
  | some d => rfl
  | none =>
    cases after? importKeyword text with
    | some n => rfl
    | none => cases after? overloadKeyword text <;> rfl

/-- and imports what follows the keyword of an import, which no line starts with that exports. -/
theorem imported?_ofTrimmed (text : List Char) :
    (ofTrimmed text).imported? = after? importKeyword text := by
  by_cases empty : text = []
  · subst empty
    rfl
  rw [ofTrimmed, if_neg empty]
  cases exporting : after? exportKeyword text with
  | some d =>
    obtain ⟨rest, rfl, -⟩ := after?_eq_some_iff.1 exporting
    rfl
  | none =>
    cases after? importKeyword text with
    | some n => rfl
    | none => cases after? overloadKeyword text <;> rfl

theorem isSome_exported?_read (raw : List Char) :
    (read raw).exported?.isSome = startsWith "export " raw := by
  rw [read, exported?_ofTrimmed, isSome_after?, startsWith, exportKeyword]

theorem isSome_imported?_read (raw : List Char) :
    (read raw).imported?.isSome = startsWith "import " raw := by
  rw [read, imported?_ofTrimmed, isSome_after?, startsWith, importKeyword]

/-- A line that asks for a name is read as the import of that name. -/
theorem read_of_asks (asks : Asks raw name) (h : Module.ImportName name) :
    read raw = .imports name := by
  obtain ⟨a, pad, b, blank, rfl⟩ := asks
  simp only [List.forall_mem_append] at blank
  have spelled := read_spelled (l := .imports name) h blank.1.1 blank.1.2 blank.2
  rwa [Line.spelled, Line.directive, ← List.append_assoc, ← List.append_assoc] at spelled

end Line

/-! ## Imports by the pieces of a text -/

namespace Module

variable {source n : String} {m : Module} {before after : List (List Char)} {line : List Char}

/-- What counts no blank line is counted by pieces as well as by lines. -/
theorem filterMap_readLines {α : Type} {f : Line → Option α} (blank : f .blank = none)
    (source : String) :
    (readLines source).filterMap f =
      (Text.pieces source.toList).filterMap fun piece => f (Line.read piece) := by
  obtain ⟨front, last, split⟩ : ∃ front last, Text.pieces source.toList = front ++ [last] :=
    ⟨_, _, (List.dropLast_append_getLast (Text.pieces_ne_nil _)).symm⟩
  have ending : ((some last).filter (· ≠ [])).toList.filterMap (fun piece => f (Line.read piece)) =
      [last].filterMap fun piece => f (Line.read piece) := by
    by_cases empty : last = []
    · subst empty
      have hread : f (Line.read []) = none := blank
      simp [Option.filter, hread]
    · simp [Option.filter, empty]
  rw [readLines, Text.lines, split, List.dropLast_concat, List.getLast?_concat, List.map_append,
    Line.map_read_dropReturn, List.filterMap_append, List.filterMap_map, List.filterMap_map,
    List.filterMap_append]
  exact congrArg _ ending

/-- **A text is a module exactly if one of its pieces starts with the keyword of an export.** -/
theorem exists_parse_iff_exists_startsWith :
    (∃ m, parse source = .ok m) ↔
      ∃ piece ∈ Text.pieces source.toList, Line.startsWith "export " piece = true := by
  have exporting : (∃ m, parse source = .ok m) ↔ (readLines source).filterMap Line.exported? ≠ [] := by
    simp only [parse_eq_ok_iff, ← Option.isSome_iff_exists, ofLines?, exported?, Option.isSome_map,
      Option.isSome_iff_ne_none, ne_eq, List.getLast?_eq_none_iff]
  rw [exporting, filterMap_readLines rfl, ne_eq, List.filterMap_eq_nil_iff]
  simp only [← Line.isSome_exported?_read, Option.isSome_iff_ne_none]
  push Not
  rfl

theorem imports_of_parse (parsed : parse source = .ok m) :
    m.imports = ((Text.pieces source.toList).filterMap fun piece =>
      (Line.read piece).imported?).map String.ofList := by
  obtain ⟨d, -, rfl⟩ := Option.map_eq_some_iff.1 (parse_eq_ok_iff.1 parsed)
  exact congrArg _ (filterMap_readLines rfl source)

/-- As many imports come out of pieces as start with the keyword. -/
theorem length_filterMap_imported? (pieces : List (List Char)) :
    (pieces.filterMap fun piece => (Line.read piece).imported?).length =
      pieces.countP (Line.startsWith "import ") := by
  rw [List.length_filterMap_eq_countP]
  exact List.countP_congr fun piece _ => by rw [Line.isSome_imported?_read]

theorem length_imports_of_parse (parsed : parse source = .ok m) :
    m.imports.length =
      (Text.pieces source.toList).countP (Line.startsWith "import ") := by
  rw [imports_of_parse parsed, List.length_map, length_filterMap_imported?]

/-- **An import stands among the imports where its line stands among the lines that import.** -/
theorem getElem?_imports_of_parse (parsed : parse source = .ok m)
    (split : Text.pieces source.toList = before ++ line :: after)
    (reads : Line.read line = .imports n.toList) :
    m.imports[before.countP (Line.startsWith "import ")]? = some n := by
  rw [imports_of_parse parsed, split, List.filterMap_append,
    List.filterMap_cons_some (by rw [reads]; rfl), List.getElem?_map,
    ← length_filterMap_imported?, List.getElem?_append_right (Nat.le_refl _), Nat.sub_self]
  simp

end Module

end ShaderLink
