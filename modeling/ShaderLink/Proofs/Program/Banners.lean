import ShaderLink.Proofs.Program.Generate

/-!
# Banners that are equally long

A banner is drawn for one name, but its width is that of the widest thing it stands with: of all names
of a program, or of all lines of a text that is reported. So the banners of a program are equally long,
and a text that is reported stands between two that are longer than each of its lines.

**The law** (`banners_are_aligned`): a banner shows its name between two runs of dashes that fill what
the name leaves of the width, the left one with the odd dash, and takes six bytes more than the wider of
the two. All banners of a program take six bytes more than its width, with two dashes at least on each
side; those around a text that is reported take ten more than its longest line.

**What it does not establish.** Widths count bytes: names with letters beyond ASCII are equally long in
bytes, not on a screen.
-/

set_option autoImplicit false

namespace ShaderLink

/-! ## One banner -/

namespace Text

variable {name : String} {width : Nat}

/-- A name that leaves room for four dashes has two on each side. -/
theorem exists_framed_banner (fits : name.utf8ByteSize + 4 ≤ width) :
    ∃ left right, 2 ≤ left ∧ 2 ≤ right ∧ Framed left name right (banner name width) :=
  ⟨_, _, by omega, by omega, framed_banner name width⟩

/-- A name that fits does not lengthen its banner. -/
theorem utf8ByteSize_banner_of_le (fits : name.utf8ByteSize ≤ width) :
    (banner name width).utf8ByteSize = width + 6 := by
  rw [utf8ByteSize_banner, Nat.max_eq_left fits]

/-- The size of the longest line of a text, 0 if it has no lines. -/
def longestLine (text : String) : Nat :=
  (lineSizes text.toList).max?.getD 0

theorem le_longestLine {text : String} {line : List Char} (h : line ∈ lines text.toList) :
    (String.ofList line).utf8ByteSize ≤ longestLine text :=
  List.le_max?_getD_of_mem (List.mem_map.2 ⟨line, h, rfl⟩)

end Text

/-! ## Banners that stand together -/

namespace Program

/-- A name of a program leaves room for four dashes in its width. -/
theorem le_bannerWidth {modules : List Module} {m : Module} (h : m ∈ modules) :
    m.name.utf8ByteSize + 4 ≤ bannerWidth modules :=
  Text.le_bannerWidth (List.mem_map.2 ⟨m, h, rfl⟩)

/-- **Banners are aligned**: each of them by its own width, those of a program with one another, and
those around a text that exports nothing with its longest line. -/
theorem banners_are_aligned :
    (∀ (name : String) (width : Nat),
      Text.Framed ((width - name.utf8ByteSize + 1) / 2) name ((width - name.utf8ByteSize) / 2)
        (Text.banner name width) ∧
      (Text.banner name width).utf8ByteSize = max width name.utf8ByteSize + 6) ∧
    (∀ (modules : List Module) (entry returnType : String) (precision : Precision) (program : String),
      (render modules entry returnType precision = .ok program ↔
        Written modules entry returnType precision program) ∧
      ∀ m ∈ modules,
        (Text.banner m.name (bannerWidth modules)).utf8ByteSize = bannerWidth modules + 6 ∧
        ∃ left right, 2 ≤ left ∧ 2 ≤ right ∧
          Text.Framed left m.name right (Text.banner m.name (bannerWidth modules))) ∧
    ∀ text : String, ∃ width,
      (BuildError.missingExport text).message =
        "the following program does not have an export available:\n" ++
          Text.banner "Program" width ++ "\n" ++ text ++ "\n" ++ Text.banner "" width ∧
      (Text.banner "Program" width).utf8ByteSize = max 20 (Text.longestLine text) + 10 ∧
      (Text.banner "" width).utf8ByteSize = max 20 (Text.longestLine text) + 10 ∧
      ∀ line ∈ Text.lines text.toList,
        (String.ofList line).utf8ByteSize < max 20 (Text.longestLine text) + 10 := by
  refine ⟨fun name width => ⟨Text.framed_banner name width, Text.utf8ByteSize_banner name width⟩,
    ?_, fun text => ?_⟩
  · refine fun modules entry returnType precision program =>
      ⟨render_eq_ok_iff_written, fun m hm => ?_⟩
    have fits := le_bannerWidth hm
    exact ⟨Text.utf8ByteSize_banner_of_le (by omega), Text.exists_framed_banner fits⟩
  · have width := Text.bannerWidth_eq (Text.lineSizes text.toList)
    have size : ∀ name : String, name.utf8ByteSize ≤ 24 →
        (Text.banner name (Text.bannerWidth (Text.lineSizes text.toList))).utf8ByteSize =
          max 20 (Text.longestLine text) + 10 := by
      intro name short
      rw [Text.utf8ByteSize_banner_of_le (by omega), width, Text.longestLine]
    refine ⟨_, rfl, size "Program" (by decide), size "" (by decide), fun line hline => ?_⟩
    have longest := Text.le_longestLine hline
    omega

/-- Two names, one of them with a letter of two bytes. -/
def swatches : List Module :=
  [⟨"abc", "float", "float abc()", []⟩, ⟨"tête", "vec3", "vec3 tête()", ["abc"]⟩]

/-- Both banners of their program take thirty bytes, and so does one below a text that is reported,
whose line takes twelve. -/
theorem banners_are_aligned_swatches :
    ∃ program width, render swatches "tête" "vec3" .high = .ok program ∧
      Written swatches "tête" "vec3" .high program ∧
      (Text.banner "abc" (bannerWidth swatches)).utf8ByteSize = 30 ∧
      (Text.banner "tête" (bannerWidth swatches)).utf8ByteSize = 30 ∧
      (∃ left right, 2 ≤ left ∧ 2 ≤ right ∧
        Text.Framed left "tête" right (Text.banner "tête" (bannerWidth swatches))) ∧
      (BuildError.missingExport "vec3 tête()\n").message =
        "the following program does not have an export available:\n" ++
          Text.banner "Program" width ++ "\n" ++ "vec3 tête()\n" ++ "\n" ++ Text.banner "" width ∧
      "vec3 tête()".utf8ByteSize < (Text.banner "" width).utf8ByteSize := by
  have rendered : render swatches "tête" "vec3" .high = .ok (text swatches "tête" .vec3 .high) := rfl
  obtain ⟨made, banners⟩ := banners_are_aligned.2.1 swatches "tête" "vec3" .high
    (text swatches "tête" .vec3 .high)
  have written := made.1 rendered
  have first := banners ⟨"abc", "float", "float abc()", []⟩ (by simp [swatches])
  have second := banners ⟨"tête", "vec3", "vec3 tête()", ["abc"]⟩ (by simp [swatches])
  obtain ⟨width, message, -, size, longer⟩ := banners_are_aligned.2.2 "vec3 tête()\n"
  have line := longer "vec3 tête()".toList (by decide)
  rw [← size, String.ofList_toList] at line
  exact ⟨_, width, rendered, written, first.1, second.1, second.2, message, line⟩

example : Text.banner "abc" 24 = "/*----------- abc ----------*/" := by decide

end Program

end ShaderLink
