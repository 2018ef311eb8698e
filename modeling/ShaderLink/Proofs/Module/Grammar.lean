import Mathlib.Data.List.Basic
import ShaderLink.Module
import ShaderLink.Proofs.Text.Lines

/-!
# The grammar of a module's text

A module's text is a list of lines, each written with blanks as its author pleases: before it, behind
it, and in a directive behind the keyword. A line feed ends each line, with a carriage return before
it or not; behind the last line it may be missing. `Prints` says this of lines and a text.

**The law** (`parse_of_prints`): however its lines are written, a text is read as the module that
they describe, and as no module exactly when none of them exports. Every text is the print of some
lines (`exists_prints`), so this says all of reading.

**What it does not establish.** The lines are only told apart, not understood: what a plain line
holds may look like an export behind a misspelled keyword.
-/

set_option autoImplicit false

namespace ShaderLink

/-! ## The cuts of a declaration, by position -/

namespace Declaration

/-- What stands before the first `c` is a text up to the place of `c`. -/
private theorem takeWhile_ne (c : Char) (t : List Char) :
    t.takeWhile (· ≠ c) = t.take (t.idxOf c) := by
  have hp : (fun a : Char => !decide (a ≠ c)) = (· == c) := by
    funext a
    by_cases h : a = c <;> simp [h]
  rw [List.takeWhile_eq_take_findIdx_not, hp]
  rfl

theorem beforeSpace_eq (t : List Char) : beforeSpace t = t.take (t.idxOf ' ') :=
  takeWhile_ne ' ' t

theorem fromSpace_eq (t : List Char) : fromSpace t = t.drop (t.idxOf ' ') := by
  have h := beforeSpace_append_fromSpace t
  rw [beforeSpace_eq] at h
  exact List.append_cancel_left (h.trans (List.take_append_drop (t.idxOf ' ') t).symm)

/-- The name lies between the first space and the first parenthesis, if they come in this order. -/
theorem namePart_eq (t : List Char) : namePart t = (t.take (t.idxOf '(')).drop (t.idxOf ' ') := by
  have hsplit : t.take (t.idxOf ' ') ++ t.drop (t.idxOf ' ') = t := List.take_append_drop _ _
  have hlen : (t.take (t.idxOf ' ')).length = t.idxOf ' ' := by
    rw [List.length_take, Nat.min_eq_left List.idxOf_le_length]
  rw [namePart, beforeSpace_eq, fromSpace_eq]
  split
  · next hparen =>
    have hidx : (t.take (t.idxOf ' ') ++ t.drop (t.idxOf ' ')).idxOf '(' =
        (t.take (t.idxOf ' ')).idxOf '(' := List.idxOf_append_of_mem hparen
    have hlt : t.idxOf '(' < t.idxOf ' ' := by
      rw [← hsplit, hidx, hsplit]
      exact Nat.lt_of_lt_of_eq (List.idxOf_lt_length_of_mem hparen) hlen
    rw [List.drop_eq_nil_of_le]
    rw [List.length_take]
    omega
  · next hparen =>
    have hidx : (t.take (t.idxOf ' ') ++ t.drop (t.idxOf ' ')).idxOf '(' =
        (t.take (t.idxOf ' ')).length + (t.drop (t.idxOf ' ')).idxOf '(' :=
      List.idxOf_append_of_notMem hparen
    rw [hsplit, hlen] at hidx
    rw [takeWhile_ne, List.drop_take, hidx, Nat.add_sub_cancel_left]

end Declaration

/-! ## Lines as they are written -/

theorem Line.Proper.not_mem_spelled {l : Line} (h : l.Proper) {pad : List Char}
    (hpad : '\n' ∉ pad) : '\n' ∉ l.spelled pad := by
  cases l with
  | blank => simp [Line.spelled]
  | imports t => simp [Line.spelled, Line.directive, hpad, h.2.2]
  | exports t => simp [Line.spelled, Line.directive, hpad, h.2.2]
  | overloads t => simp [Line.spelled, Line.directive, hpad, h.2.2]
  | plain t => exact h.2.2.1

/-- A proper line with the blanks of its author, none of them a line feed. Only a directive shows
`pad`, which stands behind its keyword. -/
structure SpelledLine where
  line : Line
  before : List Char
  pad : List Char
  after : List Char
  proper : line.Proper
  blank : ∀ c ∈ before ++ pad ++ after, Text.isBlank c = true ∧ c ≠ '\n'

namespace SpelledLine

/-- The line as it is written. -/
def raw (s : SpelledLine) : List Char :=
  s.before ++ s.line.spelled s.pad ++ s.after

theorem read_raw (s : SpelledLine) : Line.read s.raw = s.line := by
  refine Line.read_spelled s.proper (fun c hc => ?_) (fun c hc => ?_) (fun c hc => ?_)
  · exact (s.blank c (by simp [hc])).1
  · exact (s.blank c (by simp [hc])).1
  · exact (s.blank c (by simp [hc])).1

/-- A line stands on one line. -/
theorem not_mem_raw (s : SpelledLine) : '\n' ∉ s.raw := by
  have hpad : '\n' ∉ s.pad := fun hc => (s.blank _ (by simp [hc])).2 rfl
  simp only [raw, List.mem_append, not_or]
  refine ⟨⟨fun hc => ?_, s.proper.not_mem_spelled hpad⟩, fun hc => ?_⟩
  · exact (s.blank _ (by simp [hc])).2 rfl
  · exact (s.blank _ (by simp [hc])).2 rfl

end SpelledLine

/-- **A text is the print of lines**: each of them ended by a line feed, or each but the last, if
that one is not empty. -/
inductive Prints (ss : List SpelledLine) (t : List Char) : Prop
  | ended : t = Text.terminated (ss.map SpelledLine.raw) → Prints ss t
  | unended : t = Text.join (ss.map SpelledLine.raw) → (∀ s ∈ ss.getLast?, s.raw ≠ []) → Prints ss t

/-! ## Reading what is printed -/

theorem Line.read_dropReturn (l : List Char) : Line.read (Text.dropReturn l) = Line.read l := by
  rw [Line.read, Line.read, Text.trim_dropReturn]

theorem Line.map_read_dropReturn (ls : List (List Char)) :
    (ls.map Text.dropReturn).map Line.read = ls.map Line.read := by
  rw [List.map_map]
  exact List.map_congr_left fun l _ => Line.read_dropReturn l

/-- **The lines of a print are read back**, whatever blanks they are written with. -/
theorem readLines_of_prints {ss : List SpelledLine} {source : String}
    (h : Prints ss source.toList) : Module.readLines source = ss.map SpelledLine.line := by
  have hraw : ∀ l ∈ ss.map SpelledLine.raw, '\n' ∉ l := by
    intro l hl
    obtain ⟨s, -, rfl⟩ := List.mem_map.1 hl
    exact s.not_mem_raw
  have hread : (ss.map SpelledLine.raw).map Line.read = ss.map SpelledLine.line := by
    rw [List.map_map]
    exact List.map_congr_left fun s _ => s.read_raw
  cases h with
  | ended ht => rw [Module.readLines, ht, Text.lines_terminated hraw, Line.map_read_dropReturn, hread]
  | unended ht hlast =>
    have hne : ∀ l ∈ (ss.map SpelledLine.raw).getLast?, l ≠ [] := by
      intro l hl
      rw [List.getLast?_map] at hl
      obtain ⟨s, hs, rfl⟩ := Option.map_eq_some_iff.1 hl
      exact hlast s hs
    rw [Module.readLines, ht, Text.lines_join hraw hne, List.map_append, Line.map_read_dropReturn,
      ← List.map_append, ← hread]
    congr 1
    cases hl : (ss.map SpelledLine.raw).getLast? with
    | none => simp [List.getLast?_eq_none_iff.1 hl]
    | some l => exact List.dropLast_append_getLast? l hl

/-! ## Every text is a print -/

namespace SpelledLine

/-- Behind a keyword, which ends in a space, a trimmed text carries a text of its own. -/
private theorem exists_behind {keyword t : List Char} (hkey : keyword.getLast? = some ' ')
    (ht : Text.Trimmed t) (hstart : keyword <+: t) :
    ∃ pad d b, t = keyword ++ (pad ++ d) ++ b ∧ (∀ c ∈ pad, Text.isBlank c = true) ∧
      (∀ c ∈ b, Text.isBlank c = true) ∧ d ≠ [] ∧ Text.Trimmed d := by
  obtain ⟨rest, rfl⟩ := hstart
  obtain ⟨pad, b, hpad, hb, heq⟩ := Text.exists_trim rest
  refine ⟨pad, Text.trim rest, b, ?_, hpad, hb, fun hnil => ?_, Text.trimmed_trim rest⟩
  · rw [List.append_assoc, ← heq]
  · -- with nothing behind it the text would end in a blank: in the keyword's space or a later one
    rw [hnil, List.append_nil] at heq
    have hblank : ∀ c ∈ rest, Text.isBlank c = true := by
      intro c hc
      rw [heq] at hc
      exact (List.mem_append.1 hc).elim (hpad c) (hb c)
    obtain ⟨c, hlast, hc⟩ : ∃ c, (keyword ++ rest).getLast? = some c ∧ Text.isBlank c = true := by
      rw [List.getLast?_append, hkey]
      cases hr : rest.getLast? with
      | none => exact ⟨' ', rfl, by decide⟩
      | some c => exact ⟨c, rfl, hblank c (List.mem_of_getLast? hr)⟩
    rw [ht.2 c hlast] at hc
    cases hc

/-- Blanks of a text without line feeds may stand around a line. -/
private theorem blank_and_ne {b : List Char} (hb : ∀ c ∈ b, Text.isBlank c = true)
    (hn : '\n' ∉ b) : ∀ c ∈ b, Text.isBlank c = true ∧ c ≠ '\n' := by
  intro c hc
  refine ⟨hb c hc, ?_⟩
  rintro rfl
  exact hn hc

/-- A trimmed text that starts with a keyword is written as that directive. -/
private theorem exists_directive (keyword : String) (directive : List Char → Line)
    (hspelled : ∀ pad d, (directive d).spelled pad = keyword.toList ++ (pad ++ d))
    (hproper : ∀ d, d ≠ [] → Text.Trimmed d → '\n' ∉ d → (directive d).Proper)
    (hkey : keyword.toList.getLast? = some ' ') {a t b : List Char} (ht : Text.Trimmed t)
    (hstart : keyword.toList <+: t) (ha : ∀ c ∈ a, Text.isBlank c = true)
    (hb : ∀ c ∈ b, Text.isBlank c = true) (hline : '\n' ∉ a ++ t ++ b) :
    ∃ s : SpelledLine, s.raw = a ++ t ++ b := by
  obtain ⟨pad, d, b', rfl, hpad, hb', hne, hd⟩ := exists_behind hkey ht hstart
  simp only [List.mem_append, not_or] at hline
  obtain ⟨⟨hna, ⟨-, hnpad, hnd⟩, hnb'⟩, hnb⟩ := hline
  refine ⟨⟨directive d, a, pad, b' ++ b, hproper d hne hd hnd, ?_⟩, by simp [raw, hspelled]⟩
  simp only [List.forall_mem_append]
  exact ⟨⟨blank_and_ne ha hna, blank_and_ne hpad hnpad⟩, blank_and_ne hb' hnb', blank_and_ne hb hnb⟩

/-- A text that shows no directive is written as a blank line or as plain source. -/
private theorem exists_undirected (line : Line) (hspelled : ∀ pad, line.spelled pad = line.kept)
    (hproper : line.Proper) {a b : List Char} (ha : ∀ c ∈ a, Text.isBlank c = true)
    (hb : ∀ c ∈ b, Text.isBlank c = true) (hline : '\n' ∉ a ++ line.kept ++ b) :
    ∃ s : SpelledLine, s.raw = a ++ line.kept ++ b := by
  simp only [List.mem_append, not_or] at hline
  obtain ⟨⟨hna, -⟩, hnb⟩ := hline
  refine ⟨⟨line, a, [], b, hproper, ?_⟩, by simp [raw, hspelled]⟩
  rw [List.append_nil, List.forall_mem_append]
  exact ⟨blank_and_ne ha hna, blank_and_ne hb hnb⟩

/-- **Every text without line feeds is a line as it is written.** -/
theorem exists_raw {t : List Char} (h : '\n' ∉ t) : ∃ s : SpelledLine, s.raw = t := by
  obtain ⟨a, b, ha, hb, heq⟩ := Text.exists_trim t
  have ht := Text.trimmed_trim t
  generalize Text.trim t = u at heq ht
  subst heq
  by_cases hnil : u = []
  · subst hnil
    exact exists_undirected .blank (fun _ => rfl) trivial ha hb h
  by_cases hexport : "export ".toList <+: u
  · exact exists_directive _ .exports (fun _ _ => rfl) (fun _ h₁ h₂ h₃ => ⟨h₁, h₂, h₃⟩) (by decide)
      ht hexport ha hb h
  by_cases himport : "import ".toList <+: u
  · exact exists_directive _ .imports (fun _ _ => rfl) (fun _ h₁ h₂ h₃ => ⟨h₁, h₂, h₃⟩) (by decide)
      ht himport ha hb h
  by_cases hoverload : "overload ".toList <+: u
  · exact exists_directive _ .overloads (fun _ _ => rfl) (fun _ h₁ h₂ h₃ => ⟨h₁, h₂, h₃⟩) (by decide)
      ht hoverload ha hb h
  have hu : '\n' ∉ u := fun hc => h (by simp [hc])
  have hplain : ∀ k ∈ ["export ", "import ", "overload "], ¬ k.toList <+: u := by
    simp only [List.forall_mem_cons, List.not_mem_nil, hexport, himport, hoverload, not_false_eq_true,
      true_and, false_implies, implies_true]
  exact exists_undirected (.plain u) (fun _ => rfl) ⟨hnil, ht, hu, hplain⟩ ha hb h

/-- Texts without line feeds are lines as they are written. -/
theorem exists_map_raw {ls : List (List Char)} (h : ∀ l ∈ ls, '\n' ∉ l) :
    ∃ ss : List SpelledLine, ss.map raw = ls := by
  induction ls with
  | nil => exact ⟨[], rfl⟩
  | cons l ls ih =>
    obtain ⟨s, hs⟩ := exists_raw (h l List.mem_cons_self)
    obtain ⟨ss, hss⟩ := ih fun k hk => h k (List.mem_cons_of_mem _ hk)
    exact ⟨s :: ss, by rw [List.map_cons, hs, hss]⟩

end SpelledLine

/-- **Every text is the print of some lines.** -/
theorem exists_prints (t : List Char) : ∃ ss, Prints ss t := by
  have hpieces : ∀ l ∈ Text.pieces t, '\n' ∉ l := fun l => Text.not_mem_of_mem_pieces
  by_cases hlast : (Text.pieces t).getLast? = some []
  · obtain ⟨front, hfront⟩ := List.getLast?_eq_some_iff.1 hlast
    rw [hfront] at hpieces
    obtain ⟨ss, hss⟩ := SpelledLine.exists_map_raw fun l hl => hpieces l (List.mem_append_left _ hl)
    refine ⟨ss, .ended ?_⟩
    rw [hss, Text.terminated_eq_join, ← hfront, Text.join_pieces]
  · obtain ⟨ss, hss⟩ := SpelledLine.exists_map_raw hpieces
    refine ⟨ss, .unended (by rw [hss, Text.join_pieces]) fun s hs hraw => hlast ?_⟩
    rw [← hss, List.getLast?_map, hs, Option.map_some, hraw]

/-! ## What a text is read as -/

namespace Line

theorem exported?_eq_some_iff {l : Line} {d : List Char} : l.exported? = some d ↔ l = .exports d := by
  cases l <;> simp [exported?]

/-- Lines without an export export nothing. -/
theorem filterMap_exported?_eq_nil {ls : List Line} (h : ∀ d, .exports d ∉ ls) :
    ls.filterMap exported? = [] := by
  rw [List.filterMap_eq_nil_iff]
  intro l hl
  cases he : l.exported? with
  | none => rfl
  | some d => exact (h d (exported?_eq_some_iff.1 he ▸ hl)).elim

end Line

namespace Module

theorem exported?_eq_none {ls : List Line} (h : ∀ d, .exports d ∉ ls) : exported? ls = none := by
  rw [exported?, Line.filterMap_exported?_eq_nil h]
  rfl

/-- Of several exports the last counts. -/
theorem exported?_append_cons (front : List Line) (d : List Char) {back : List Line}
    (h : ∀ e, .exports e ∉ back) :
    exported? (front ++ .exports d :: back) = some (Declaration.ofText d) := by
  have hback := Line.filterMap_exported?_eq_nil h
  have hlast : (front ++ .exports d :: back).filterMap Line.exported? =
      front.filterMap Line.exported? ++ [d] := by
    rw [List.filterMap_append, List.filterMap_cons_some (Line.exported?_eq_some_iff.2 rfl), hback]
  rw [exported?, hlast, List.getLast?_concat]
  rfl

/-- **Reading accepts the directive grammar.** Every text is the print of some lines, and a print of
lines is read as what they say, whatever blanks and line endings it shows: as no module if none of
them exports, and otherwise as the module that the last export names. It imports what the lines
import, in order; its body keeps all other lines in their places, without their keywords and
without the empty lines at its start. -/
theorem parse_of_prints :
    (∀ source : String, ∃ ss, Prints ss source.toList) ∧
    ∀ (ss : List SpelledLine) (source : String), Prints ss source.toList →
      ((∀ d, .exports d ∉ ss.map SpelledLine.line) →
        parse source = .error (.missingExport source)) ∧
      ∀ front d back, ss.map SpelledLine.line = front ++ .exports d :: back →
        (∀ e, .exports e ∉ back) →
        parse source = .ok
          { name := String.ofList (Text.trim ((d.take (d.idxOf '(')).drop (d.idxOf ' ')))
            returnType := String.ofList (Text.trim (d.take (d.idxOf ' ')))
            body := String.ofList
              (Text.join (((ss.map SpelledLine.line).map Line.kept).dropWhile List.isEmpty))
            imports := ((ss.map SpelledLine.line).filterMap Line.imported?).map String.ofList } := by
  refine ⟨fun source => exists_prints source.toList, fun ss source h => ⟨fun hnone => ?_, ?_⟩⟩
  · rw [parse_eq_error_iff, readLines_of_prints h]
    exact ⟨exported?_eq_none hnone, rfl⟩
  · intro front d back hlines hback
    have hexported : exported? (ss.map SpelledLine.line) = some (Declaration.ofText d) := by
      rw [hlines, exported?_append_cons front d hback]
    rw [parse_eq_ok_iff, readLines_of_prints h, ofLines?, hexported, Option.map_some]
    simp only [Declaration.ofText, Declaration.beforeSpace_eq, Declaration.namePart_eq, bodyOf,
      importsOf]

/-- An import with blanks on all sides and a carriage return, then an export. -/
def importThenExport : List SpelledLine :=
  [⟨.imports ['a'], ['\t'], [' '], ['\r'], by decide, by simp; decide⟩,
    ⟨.exports "float f(v) {}".toList, [], [], [' '], by decide, by simp; decide⟩]

/-- The line feed behind the export is missing. -/
theorem parse_of_prints_importThenExport :
    Prints importThenExport "\timport  a\r\nexport float f(v) {} ".toList ∧
    parse "\timport  a\r\nexport float f(v) {} " =
      .ok ⟨"f", "float", "float f(v) {}", ["a"]⟩ := by
  have h : Prints importThenExport "\timport  a\r\nexport float f(v) {} ".toList :=
    .unended (by decide) (by decide)
  refine ⟨h, ((parse_of_prints.2 _ _ h).2 [.imports ['a']] _ [] rfl (by simp)).trans ?_⟩
  decide

end Module

end ShaderLink
