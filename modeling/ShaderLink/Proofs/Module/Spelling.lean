import ShaderLink.Module.Spelling
import ShaderLink.Proofs.Module.Grammar

/-!
# Modules and their texts

Reading loses what a text shows beside its module: blanks, blank lines at its start, the keywords,
the places of its imports. What it makes is nevertheless known: exactly the well formed modules, and
each of them is read from the text that `Module.spelled` writes.

**The law** (`exists_parse_iff_and_parse_spelled`): a module is well formed exactly when some text is read
as it, and then the text that it is spelled with is one.

The proof has two halves that meet at the lines. Every text has proper lines (`proper_of_mem_readLines`),
and what proper lines make is well formed (`wellFormed_of_ofLines?`). Conversely the lines that a
module is spelled with are proper and make the module again (`ofLines?_spelledLines`), since each line
of its body stands behind a keyword, whatever it starts with, and only one of them exports.
-/

set_option autoImplicit false

namespace ShaderLink

/-! ## Lists whose first members are dropped -/

/-- A member that is not to be dropped stays. -/
private theorem mem_dropWhile_of_mem {α : Type} {p : α → Bool} {a : α} {l : List α} (h : a ∈ l)
    (ha : p a = false) : a ∈ l.dropWhile p := by
  rw [← List.takeWhile_append_dropWhile (p := p) (l := l)] at h
  rcases List.mem_append.1 h with hdropped | hkept
  · have hall := List.all_eq_true.1 (List.all_takeWhile (p := p) (l := l)) a hdropped
    rw [ha] at hall
    cases hall
  · exact hkept

/-! ## Lines -/

namespace Line

/-- What a proper line brings into the program is trimmed. -/
theorem Proper.trimmed_kept {l : Line} (h : l.Proper) : Text.Trimmed l.kept := by
  cases l with
  | blank => exact ⟨by simp [kept], by simp [kept]⟩
  | imports t => exact ⟨by simp [kept], by simp [kept]⟩
  | exports t => exact h.2.1
  | overloads t => exact h.2.1
  | plain t => exact h.2.1

/-- What a proper line brings into the program stands on one line. -/
theorem Proper.not_mem_kept {l : Line} (h : l.Proper) : '\n' ∉ l.kept := by
  cases l with
  | blank => simp [kept]
  | imports t => simp [kept]
  | exports t => exact h.2.2
  | overloads t => exact h.2.2
  | plain t => exact h.2.2.1

theorem imported?_eq_some_iff {l : Line} {n : List Char} :
    l.imported? = some n ↔ l = .imports n := by
  cases l <;> simp [imported?]

end Line

namespace Module

/-! ## What reading makes is well formed -/

/-- Every text has proper lines: it is the print of some. -/
theorem proper_of_mem_readLines {source : String} {l : Line} (h : l ∈ readLines source) :
    l.Proper := by
  obtain ⟨ss, hss⟩ := exists_prints source.toList
  rw [readLines_of_prints hss] at h
  obtain ⟨s, -, rfl⟩ := List.mem_map.1 h
  exact s.proper

variable {ls : List Line} {m : Module}

/-- Lines that make a module export something, and what the last of them exports names it. -/
theorem exists_export_of_ofLines? (h : ofLines? ls = some m) :
    ∃ text, .exports text ∈ ls ∧ Declaration.ofText text = m.declaration := by
  obtain ⟨d, hd, rfl⟩ := Option.map_eq_some_iff.1 h
  obtain ⟨text, hlast, rfl⟩ := Option.map_eq_some_iff.1 hd
  obtain ⟨l, hl, hexported⟩ := List.mem_filterMap.1 (List.mem_of_getLast? hlast)
  rw [Line.exported?_eq_some_iff] at hexported
  exact ⟨text, hexported ▸ hl, rfl⟩

/-- What an exporting line exports stands in the body, behind the empty lines that are dropped. -/
theorem mem_bodyOf_of_exports {text : List Char} (h : .exports text ∈ ls) (hne : text ≠ []) :
    text ∈ bodyOf ls :=
  mem_dropWhile_of_mem (List.mem_map.2 ⟨_, h, rfl⟩) (by simpa using hne)

/-- The lines of a module's body are the lines that it was made of, put together and cut again. -/
theorem bodyLines_of_ofLines? (hproper : ∀ l ∈ ls, l.Proper) (h : ofLines? ls = some m) :
    m.bodyLines = bodyOf ls := by
  obtain ⟨text, hmem, -⟩ := exists_export_of_ofLines? h
  have hne : bodyOf ls ≠ [] := List.ne_nil_of_mem (mem_bodyOf_of_exports hmem (hproper _ hmem).1)
  have hline : ∀ t ∈ bodyOf ls, '\n' ∉ t := by
    intro t ht
    obtain ⟨l, hl, rfl⟩ := List.mem_map.1 ((List.dropWhile_sublist _).mem ht)
    exact (hproper l hl).not_mem_kept
  obtain ⟨d, -, rfl⟩ := Option.map_eq_some_iff.1 h
  rw [bodyLines, String.toList_ofList, Text.pieces_join hline hne]

theorem wellFormed_of_ofLines? (hproper : ∀ l ∈ ls, l.Proper) (h : ofLines? ls = some m) :
    m.WellFormed := by
  have hbody := bodyLines_of_ofLines? hproper h
  obtain ⟨text, hmem, hdeclares⟩ := exists_export_of_ofLines? h
  refine ⟨?_, ?_, ?_, ?_⟩
  · obtain ⟨d, -, rfl⟩ := Option.map_eq_some_iff.1 h
    intro n hn
    obtain ⟨t, ht, rfl⟩ := List.mem_map.1 hn
    obtain ⟨l, hl, himported⟩ := List.mem_filterMap.1 ht
    rw [Line.imported?_eq_some_iff] at himported
    subst himported
    rw [String.toList_ofList]
    exact hproper _ hl
  · rw [hbody]
    intro t ht
    obtain ⟨l, hl, rfl⟩ := List.mem_map.1 ((List.dropWhile_sublist _).mem ht)
    exact (hproper l hl).trimmed_kept
  · rw [hbody]
    intro t ht hnil
    have hkept := List.head?_dropWhile_not List.isEmpty (ls.map Line.kept)
    rw [bodyOf] at ht
    rw [ht, hnil] at hkept
    simp at hkept
  · rw [hbody]
    have hne : text ≠ [] := (hproper _ hmem).1
    exact ⟨text, mem_bodyOf_of_exports hmem hne, hne, hdeclares⟩

theorem wellFormed_of_parse {source : String} (h : parse source = .ok m) : m.WellFormed :=
  wellFormed_of_ofLines? (fun _ => proper_of_mem_readLines) (parse_eq_ok_iff.1 h)

/-! ## The lines that a module is spelled with -/

/-- Proper lines, each written without blanks and ended, are read back. -/
theorem readLines_terminated (hproper : ∀ l ∈ ls, l.Proper) :
    readLines (String.ofList (Text.terminated (ls.map (·.spelled [])))) = ls := by
  have hline : ∀ t ∈ ls.map (·.spelled []), '\n' ∉ t := by
    intro t ht
    obtain ⟨l, hl, rfl⟩ := List.mem_map.1 ht
    exact (hproper l hl).not_mem_spelled (by simp)
  have hread : ∀ l ∈ ls, Line.read (Text.dropReturn (l.spelled [])) = l := by
    intro l hl
    have h : Line.read ([] ++ l.spelled [] ++ []) = l :=
      Line.read_spelled (hproper l hl) (by simp) (by simp) (by simp)
    rwa [List.nil_append, List.append_nil, ← Line.read_dropReturn] at h
  rw [readLines, String.toList_ofList, Text.lines_terminated hline, List.map_map, List.map_map]
  exact (List.map_congr_left hread).trans (List.map_id ls)

@[simp] theorem kept_overloaded (text : List Char) : (overloaded text).kept = text := by
  unfold overloaded
  split
  · next h => exact h.symm
  · rfl

theorem exported?_overloaded (text : List Char) : (overloaded text).exported? = none := by
  unfold overloaded
  split <;> rfl

theorem imported?_overloaded (text : List Char) : (overloaded text).imported? = none := by
  unfold overloaded
  split <;> rfl

theorem proper_overloaded {text : List Char} (ht : Text.Trimmed text) (hn : '\n' ∉ text) :
    (overloaded text).Proper := by
  unfold overloaded
  split
  · trivial
  · next hne => exact ⟨hne, ht, hn⟩

variable {d : Declaration} {texts : List (List Char)}

/-- **Where a declaration is marked**: the first text that makes it is exported, and the texts before
and behind it are overloads. -/
theorem marked_eq (h : ∃ t ∈ texts, t ≠ [] ∧ Declaration.ofText t = d) :
    ∃ front text back, texts = front ++ text :: back ∧ text ≠ [] ∧ Declaration.ofText text = d ∧
      (∀ t ∈ front, t ≠ [] → Declaration.ofText t ≠ d) ∧
      marked d texts = front.map overloaded ++ .exports text :: back.map overloaded := by
  induction texts with
  | nil =>
    obtain ⟨t, ht, -⟩ := h
    cases ht
  | cons t texts ih =>
    by_cases ht : t ≠ [] ∧ Declaration.ofText t = d
    · exact ⟨[], t, texts, rfl, ht.1, ht.2, by simp, by simp [marked, ht]⟩
    · have hlater : ∃ t' ∈ texts, t' ≠ [] ∧ Declaration.ofText t' = d := by
        obtain ⟨t', hmem, ht'⟩ := h
        rcases List.mem_cons.1 hmem with rfl | hmem
        · exact (ht ht').elim
        · exact ⟨t', hmem, ht'⟩
      obtain ⟨front, text, back, rfl, hne, hd, hfirst, hmarked⟩ := ih hlater
      refine ⟨t :: front, text, back, rfl, hne, hd, ?_, ?_⟩
      · intro t' hmem hne' hd'
        rcases List.mem_cons.1 hmem with rfl | hmem
        · exact ht ⟨hne', hd'⟩
        · exact hfirst t' hmem hne' hd'
      · rw [marked, if_neg ht, hmarked, List.map_cons, List.cons_append]

/-- The texts that are marked are brought into the program as they are. -/
theorem map_kept_marked (d : Declaration) (texts : List (List Char)) :
    (marked d texts).map Line.kept = texts := by
  induction texts with
  | nil => rfl
  | cons t texts ih =>
    rw [marked]
    split
    · rw [List.map_cons, List.map_map]
      exact congrArg (t :: ·) ((List.map_congr_left fun u _ => kept_overloaded u).trans (List.map_id _))
    · rw [List.map_cons, kept_overloaded, ih]

theorem proper_of_mem_marked (htrimmed : ∀ t ∈ texts, Text.Trimmed t)
    (hline : ∀ t ∈ texts, '\n' ∉ t) {l : Line} (h : l ∈ marked d texts) : l.Proper := by
  induction texts with
  | nil => cases h
  | cons t texts ih =>
    have ht := htrimmed t List.mem_cons_self
    have hn := hline t List.mem_cons_self
    have htrimmed' := fun u hu => htrimmed u (List.mem_cons_of_mem _ hu)
    have hline' := fun u hu => hline u (List.mem_cons_of_mem _ hu)
    rw [marked] at h
    split at h
    · next hmark =>
      rcases List.mem_cons.1 h with rfl | h
      · exact ⟨hmark.1, ht, hn⟩
      · obtain ⟨u, hu, rfl⟩ := List.mem_map.1 h
        exact proper_overloaded (htrimmed' u hu) (hline' u hu)
    · rcases List.mem_cons.1 h with rfl | h
      · exact proper_overloaded ht hn
      · exact ih htrimmed' hline' h

/-- A well formed module is spelled with proper lines. -/
theorem WellFormed.proper_of_mem_spelledLines (h : m.WellFormed) {l : Line}
    (hl : l ∈ m.spelledLines) : l.Proper := by
  rcases List.mem_append.1 hl with hl | hl
  · obtain ⟨n, hn, rfl⟩ := List.mem_map.1 hl
    exact h.imports n hn
  · exact proper_of_mem_marked h.trimmed (fun t ht => Text.not_mem_of_mem_pieces ht) hl

/-- Of the lines that a well formed module is spelled with, one exports: what the module declares. -/
theorem WellFormed.exported?_spelledLines (h : m.WellFormed) :
    exported? m.spelledLines = some m.declaration := by
  obtain ⟨front, text, back, -, -, hdeclares, -, hmarked⟩ := marked_eq h.declared
  have hback : ∀ e, .exports e ∉ back.map overloaded := by
    intro e he
    obtain ⟨t, -, ht⟩ := List.mem_map.1 he
    have hexported := exported?_overloaded t
    rw [ht] at hexported
    cases hexported
  rw [spelledLines, hmarked, ← List.append_assoc, exported?_append_cons _ _ hback, hdeclares]

/-- Of the lines that a well formed module is spelled with, the first ones import. -/
theorem WellFormed.importsOf_spelledLines (h : m.WellFormed) :
    importsOf m.spelledLines = m.imports := by
  obtain ⟨front, text, back, -, -, -, -, hmarked⟩ := marked_eq h.declared
  have hoverloaded : ∀ texts : List (List Char),
      (texts.map overloaded).filterMap Line.imported? = [] := by
    intro texts
    rw [List.filterMap_map, List.filterMap_eq_nil_iff]
    exact fun t _ => imported?_overloaded t
  have himports : (m.imports.map fun n => Line.imports n.toList).filterMap Line.imported? =
      m.imports.map String.toList := by
    rw [List.filterMap_map, ← List.filterMap_eq_map]
    rfl
  have hmarked' : (marked m.declaration m.bodyLines).filterMap Line.imported? = [] := by
    rw [hmarked, List.filterMap_append, hoverloaded, List.filterMap_cons_none rfl, hoverloaded]
    rfl
  rw [importsOf, spelledLines, List.filterMap_append, himports, hmarked', List.append_nil,
    List.map_map]
  exact (List.map_congr_left fun n _ => String.ofList_toList).trans (List.map_id _)

/-- Imports leave empty lines, which stand in front of the body and are dropped; the body of a well
formed module starts with a line that is not. -/
theorem WellFormed.bodyOf_spelledLines (h : m.WellFormed) : bodyOf m.spelledLines = m.bodyLines := by
  have himports : ∀ t ∈ (m.imports.map fun n => Line.imports n.toList).map Line.kept,
      t.isEmpty = true := by
    intro t ht
    rw [List.map_map] at ht
    obtain ⟨n, -, rfl⟩ := List.mem_map.1 ht
    rfl
  rw [bodyOf, spelledLines, List.map_append, map_kept_marked,
    List.dropWhile_append_of_pos himports]
  cases hbody : m.bodyLines with
  | nil => rfl
  | cons t texts =>
    have hne : t ≠ [] := h.head t (by simp [hbody])
    exact List.dropWhile_cons_of_neg (by simpa using hne)

/-- **The lines that a well formed module is spelled with make the module.** -/
theorem WellFormed.ofLines?_spelledLines (h : m.WellFormed) : ofLines? m.spelledLines = some m := by
  have hbody : String.ofList (Text.join m.bodyLines) = m.body := by
    rw [bodyLines, Text.join_pieces, String.ofList_toList]
  rw [ofLines?, h.exported?_spelledLines, h.importsOf_spelledLines, h.bodyOf_spelledLines, hbody]
  rfl

/-! ## The law -/

/-- **Reading makes exactly the well formed modules**, and a well formed module is read from the text
that it is spelled with: its imports line by line, then its body, in which the first line that
declares what the module exports is marked as the export and all others as overloads. -/
theorem exists_parse_iff_and_parse_spelled (m : Module) :
    ((∃ source, parse source = .ok m) ↔ m.WellFormed) ∧
      (m.WellFormed → parse m.spelled = .ok m) := by
  have hspelled : m.WellFormed → parse m.spelled = .ok m := by
    intro h
    rw [parse_eq_ok_iff, spelled, readLines_terminated fun l => h.proper_of_mem_spelledLines]
    exact h.ofLines?_spelledLines
  refine ⟨⟨?_, fun h => ⟨m.spelled, hspelled h⟩⟩, hspelled⟩
  rintro ⟨source, hparse⟩
  exact wellFormed_of_ofLines? (fun l => proper_of_mem_readLines) (parse_eq_ok_iff.1 hparse)

/-- A module with a line in its body that looks like an import, and two empty ones behind it. -/
def lookalike : Module where
  name := "f"
  returnType := "float"
  body := "import x y\nfloat f(v) {}\n\n"
  imports := ["a b"]

/-- Behind the keyword of an overload the line is no import, and the empty lines are kept. -/
theorem parse_spelled_lookalike :
    lookalike.WellFormed ∧
    lookalike.spelled = "import a b\noverload import x y\nexport float f(v) {}\n\n\n" ∧
    parse lookalike.spelled = .ok lookalike := by
  have h : lookalike.WellFormed := by
    refine ⟨by decide, by decide, ?_, by decide⟩
    intro l hl
    have hfirst : lookalike.bodyLines.head? = some "import x y".toList := by decide
    rw [hfirst] at hl
    obtain rfl := Option.some.inj hl
    decide
  exact ⟨h, by decide, (exists_parse_iff_and_parse_spelled lookalike).2 h⟩

end Module

end ShaderLink
