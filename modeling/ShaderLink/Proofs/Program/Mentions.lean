import ShaderLink.Pipeline
import ShaderLink.Proofs.Module.Names
import ShaderLink.Proofs.Program.Banners
import ShaderLink.Proofs.Registry.History
import ShaderLink.Proofs.Text.Lines

/-!
# Which names a program mentions

Whether a program samples, and whether it asks for the grain of the image, is read off texts: of the
bodies of its modules when it is written, of the whole program when it is kept. Both ask the same. What
is written around the bodies holds no `T`, so it mentions neither of the two names; names of modules do
stand in it, but apart from all else, and a module that is read from a text has its name in its body.

**The law** (`mentions_of_generate`): a program mentions the sampler, and declares it on its third line,
exactly if the body of a linked module mentions it; likewise it mentions the size of a texel exactly if
such a body does.

**What it does not establish.** A mention is no use: a comment mentions a name too, and so does a longer
name that holds it.
-/

set_option autoImplicit false

namespace ShaderLink

/-! ## Words between separators -/

namespace Text

variable {w a b t : List Char} {c : Char}

private theorem eq_nil_of_prefix_cons (h : w <+: c :: b) (hc : c ∉ w) : w = [] := by
  rcases List.prefix_cons_iff.1 h with rfl | ⟨v, rfl, -⟩
  · rfl
  · exact (hc List.mem_cons_self).elim

/-- **A word does not reach over a character that it lacks.** -/
theorem infix_append_cons_iff (hne : w ≠ []) (hc : c ∉ w) :
    w <:+: a ++ c :: b ↔ w <:+: a ∨ w <:+: b := by
  constructor
  · intro h
    rcases List.infix_append_iff.1 h with h | h | ⟨u, v, rfl, hu, hv⟩
    · exact .inl h
    · rcases List.infix_cons_iff.1 h with h | h
      · exact (hne (eq_nil_of_prefix_cons h hc)).elim
      · exact .inr h
    · obtain rfl := eq_nil_of_prefix_cons hv fun h => hc (List.mem_append_right u h)
      rw [List.append_nil]
      exact .inl hu.isInfix
  · rintro (h | h)
    · exact h.trans (List.prefix_append a _).isInfix
    · exact h.trans ((List.suffix_cons c b).trans (List.suffix_append a _)).isInfix

theorem infix_cons_iff_of_not_mem (hne : w ≠ []) (hc : c ∉ w) : w <:+: c :: b ↔ w <:+: b := by
  rw [← List.nil_append (c :: b), infix_append_cons_iff hne hc, List.infix_nil, or_iff_right hne]

/-- A word does not stand in a text that lacks one of its characters. -/
theorem not_infix_of_not_mem (hw : c ∈ w) (ht : c ∉ t) : ¬ w <:+: t :=
  fun h => ht (h.subset hw)

end Text

namespace Program

variable {w : List Char} {modules : List Module} {entry : String} {type : OutputType}
  {precision : Precision}

/-! ## What is written around the bodies -/

/-- **A word that is foreign to what is written around bodies**: that holds no `T`, and sets names
apart by characters that the word lacks. -/
structure Foreign (w : List Char) : Prop where
  capital : 'T' ∈ w
  lineFeed : '\n' ∉ w
  space : ' ' ∉ w
  parenthesis : '(' ∉ w

theorem foreign_texture : Foreign "uTexture".toList :=
  ⟨by decide, by decide, by decide, by decide⟩

theorem foreign_texelSize : Foreign "uTexelSize".toList :=
  ⟨by decide, by decide, by decide, by decide⟩

namespace Foreign

theorem ne_nil (h : Foreign w) : w ≠ [] := List.ne_nil_of_mem h.capital

theorem not_infix (h : Foreign w) {t : List Char} (ht : 'T' ∉ t) : ¬ w <:+: t :=
  Text.not_infix_of_not_mem h.capital ht

end Foreign

/-- A banner shows the name between spaces, and no `T` beside it. -/
theorem exists_banner_eq (name : String) (width : Nat) :
    ∃ front back, 'T' ∉ front ∧ 'T' ∉ back ∧
      (Text.banner name width).toList = front ++ ' ' :: (name.toList ++ ' ' :: back) := by
  refine ⟨_, _, ?_, ?_, Text.framed_banner name width⟩
  · simp
  · simp

/-- The statements of a `main` call the entry point behind a space and hold no `T` beside its name. -/
theorem exists_statements_eq (entry : String) (type : OutputType) :
    ∃ front back, 'T' ∉ front ∧ 'T' ∉ back ∧
      (type.statements entry).toList = front ++ ' ' :: (entry.toList ++ '(' :: back) := by
  unfold OutputType.statements
  cases type with
  | float =>
    exact ⟨"\tfloat v =".toList, ");\n\tgl_FragColor = vec4(v, v, v, 1.0);".toList, by decide, by decide,
      by simp⟩
  | vec2 =>
    exact ⟨"\tvec2 v =".toList, ");\n\tgl_FragColor = vec4(v, 0.0, 1.0);".toList, by decide, by decide,
      by simp⟩
  | vec3 =>
    exact ⟨"\tvec3 v =".toList, ");\n\tgl_FragColor = vec4(v, 1.0);".toList, by decide, by decide, by simp⟩
  | vec4 => exact ⟨"\tgl_FragColor =".toList, ");".toList, by decide, by decide, by simp⟩

/-- So does the `main` itself, behind a blank line. -/
theorem exists_mainFunction_eq (entry : String) (type : OutputType) :
    ∃ front back, 'T' ∉ front ∧ 'T' ∉ back ∧
      (mainFunction entry type).toList = '\n' :: (front ++ ' ' :: (entry.toList ++ '(' :: back)) := by
  obtain ⟨front, back, hfront, hback, split⟩ := exists_statements_eq entry type
  refine ⟨"void main() ".toList ++ '{' :: '\n' :: front, back ++ ['\n', '}', '\n'], ?_, ?_, ?_⟩
  · simp [hfront]
  · simp [hback]
  · unfold mainFunction
    simp [split]

/-- The first two lines hold no `T`. -/
theorem exists_preamble_eq (precision : Precision) :
    ∃ first second, 'T' ∉ first ∧ 'T' ∉ second ∧ '\n' ∉ first ∧ '\n' ∉ second ∧
      (preamble precision).toList = first ++ '\n' :: (second ++ ['\n']) := by
  refine ⟨"precision ".toList ++ precision.keyword.toList ++ " float;".toList,
    "varying vec2 vUV;".toList, ?_, by decide, ?_, by decide, ?_⟩
  · cases precision <;> decide
  · cases precision <;> decide
  · simp [preamble, Identifier.coordinate]

/-! ## Sections and programs -/

namespace Foreign

theorem infix_banner_iff (h : Foreign w) (name : String) (width : Nat) :
    w <:+: (Text.banner name width).toList ↔ w <:+: name.toList := by
  obtain ⟨front, back, hfront, hback, split⟩ := exists_banner_eq name width
  rw [split, Text.infix_append_cons_iff h.ne_nil h.space, Text.infix_append_cons_iff h.ne_nil h.space,
    or_iff_right (h.not_infix hfront), or_iff_left (h.not_infix hback)]

theorem infix_mainFunction_iff (h : Foreign w) (entry : String) (type : OutputType) :
    w <:+: (mainFunction entry type).toList ↔ w <:+: entry.toList := by
  obtain ⟨front, back, hfront, hback, split⟩ := exists_mainFunction_eq entry type
  rw [split, Text.infix_cons_iff_of_not_mem h.ne_nil h.lineFeed,
    Text.infix_append_cons_iff h.ne_nil h.space, Text.infix_append_cons_iff h.ne_nil h.parenthesis,
    or_iff_right (h.not_infix hfront), or_iff_left (h.not_infix hback)]

/-- A section shows a foreign word where its module's name or text does, whatever follows it. -/
theorem infix_moduleSection_append_iff (h : Foreign w) (width : Nat) (m : Module) (t : List Char) :
    w <:+: (moduleSection width m).toList ++ t ↔
      (w <:+: m.name.toList ∨ w <:+: m.body.toList) ∨ w <:+: t := by
  have split : (moduleSection width m).toList ++ t =
      '\n' :: ((Text.banner m.name width).toList ++ '\n' :: (m.body.toList ++ '\n' :: t)) := by
    simp [moduleSection]
  rw [split, Text.infix_cons_iff_of_not_mem h.ne_nil h.lineFeed,
    Text.infix_append_cons_iff h.ne_nil h.lineFeed, Text.infix_append_cons_iff h.ne_nil h.lineFeed,
    h.infix_banner_iff, or_assoc]

/-- The same of all sections. -/
theorem infix_sections_append_iff (h : Foreign w) (modules : List Module) (t : List Char) :
    w <:+: (sections modules).toList ++ t ↔
      (∃ m ∈ modules, w <:+: m.name.toList ∨ w <:+: m.body.toList) ∨ w <:+: t := by
  have step : ∀ (width : Nat) (ms : List Module),
      w <:+: (String.join (ms.map (moduleSection width))).toList ++ t ↔
        (∃ m ∈ ms, w <:+: m.name.toList ∨ w <:+: m.body.toList) ∨ w <:+: t := by
    intro width ms
    induction ms with
    | nil => simp
    | cons m ms ih =>
      rw [List.map_cons, String.join_cons, String.toList_append, List.append_assoc,
        h.infix_moduleSection_append_iff, ih, List.exists_mem_cons_iff]
      exact or_assoc.symm
  exact step _ modules

end Foreign

/-- A blank line stands before the sections, and before the `main` if there are none. -/
theorem exists_sections_append_eq (modules : List Module) (entry : String) (type : OutputType) :
    ∃ tail, (sections modules).toList ++ (mainFunction entry type).toList = '\n' :: tail := by
  cases modules with
  | nil =>
    obtain ⟨front, back, -, -, split⟩ := exists_mainFunction_eq entry type
    simp [sections, split]
  | cons m modules => simp [sections, moduleSection, String.join_cons]

/-- **A program by its lines**: two, that of the sampler if there is one, and what follows behind a
blank line. -/
theorem exists_text_eq (modules : List Module) (entry : String) (type : OutputType)
    (precision : Precision) :
    ∃ first second tail, 'T' ∉ first ∧ 'T' ∉ second ∧ '\n' ∉ first ∧ '\n' ∉ second ∧
      (sections modules).toList ++ (mainFunction entry type).toList = '\n' :: tail ∧
      (text modules entry type precision).toList =
        first ++ '\n' :: (second ++ '\n' :: ((sampler modules).toList ++ '\n' :: tail)) := by
  obtain ⟨first, second, hfirst, hsecond, line, line', start⟩ := exists_preamble_eq precision
  obtain ⟨tail, behind⟩ := exists_sections_append_eq modules entry type
  refine ⟨first, second, tail, hfirst, hsecond, line, line', behind, ?_⟩
  rw [← behind]
  simp [text, start]

/-- **A program shows a foreign word** in the line of its sampler, where a name or a text of a module
does, or in the name that it calls; nowhere else, and not across two of these. -/
theorem Foreign.infix_text_iff (h : Foreign w) (modules : List Module) (entry : String)
    (type : OutputType) (precision : Precision) :
    w <:+: (text modules entry type precision).toList ↔
      w <:+: (sampler modules).toList ∨
        (∃ m ∈ modules, w <:+: m.name.toList ∨ w <:+: m.body.toList) ∨ w <:+: entry.toList := by
  obtain ⟨first, second, tail, hfirst, hsecond, -, -, behind, split⟩ :=
    exists_text_eq modules entry type precision
  have htail : w <:+: tail ↔
      (∃ m ∈ modules, w <:+: m.name.toList ∨ w <:+: m.body.toList) ∨ w <:+: entry.toList := by
    rw [← Text.infix_cons_iff_of_not_mem h.ne_nil h.lineFeed, ← behind, h.infix_sections_append_iff,
      h.infix_mainFunction_iff]
  rw [split, Text.infix_append_cons_iff h.ne_nil h.lineFeed,
    Text.infix_append_cons_iff h.ne_nil h.lineFeed, Text.infix_append_cons_iff h.ne_nil h.lineFeed,
    or_iff_right (h.not_infix hfirst), or_iff_right (h.not_infix hsecond), htail]

/-- **The third line is the sampler's** exactly if a module samples; else it is blank. -/
theorem third_line_iff (modules : List Module) (entry : String) (type : OutputType)
    (precision : Precision) :
    (Text.lines (text modules entry type precision).toList)[2]? =
        some "uniform sampler2D uTexture;".toList ↔
      samples modules = true := by
  obtain ⟨first, second, tail, -, -, hfirst, hsecond, -, split⟩ :=
    exists_text_eq modules entry type precision
  rw [split, Text.lines_append_cons _ hfirst, Text.lines_append_cons _ hsecond, sampler]
  by_cases hs : samples modules = true
  · have line : ("uniform sampler2D " ++ Identifier.texture ++ ";\n").toList ++ '\n' :: tail =
        "uniform sampler2D uTexture;".toList ++ '\n' :: '\n' :: tail := by
      simp [Identifier.texture]
    rw [if_pos hs, line, Text.lines_append_cons _ (by decide)]
    simp only [hs, iff_true]
    rfl
  · have line : "".toList ++ '\n' :: tail = [] ++ '\n' :: tail := rfl
    rw [if_neg hs, line, Text.lines_append_cons _ (by simp)]
    simp [hs, Text.dropReturn]

/-! ## Programs of modules that hold their names -/

/-- Over modules that hold their own names, one of them the entry point, a foreign word stands in the
program because of the sampler or of a body. -/
theorem Foreign.infix_text_iff_of_named (h : Foreign w)
    (named : ∀ m ∈ modules, m.name.toList <:+: m.body.toList)
    (entered : ∃ m ∈ modules, m.name = entry) :
    w <:+: (text modules entry type precision).toList ↔
      w <:+: (sampler modules).toList ∨ ∃ m ∈ modules, w <:+: m.body.toList := by
  rw [h.infix_text_iff]
  constructor
  · rintro (hw | ⟨m, hm, hw | hw⟩ | hw)
    · exact .inl hw
    · exact .inr ⟨m, hm, hw.trans (named m hm)⟩
    · exact .inr ⟨m, hm, hw⟩
    · obtain ⟨m, hm, rfl⟩ := entered
      exact .inr ⟨m, hm, hw.trans (named m hm)⟩
  · rintro (hw | ⟨m, hm, hw⟩)
    · exact .inl hw
    · exact .inr (.inl ⟨m, hm, .inr hw⟩)

/-- The line of the sampler mentions the sampler, and is written if a body does. -/
theorem infix_texture_sampler (h : "uTexture".toList <:+: (sampler modules).toList) :
    ∃ m ∈ modules, "uTexture".toList <:+: m.body.toList := by
  rw [← samples_iff]
  by_contra hs
  rw [sampler, if_neg hs] at h
  exact foreign_texture.not_infix (by simp) h

theorem not_infix_texelSize_sampler : ¬ "uTexelSize".toList <:+: (sampler modules).toList := by
  refine Text.not_infix_of_not_mem (c := 'S') (by decide) ?_
  unfold sampler
  split <;> decide

end Program

namespace Registry

open Program

variable {r : Registry} {library calls : List String} {entry program : String}
  {precision : Precision}

/-- A program that is generated is the text of a link order, which holds the entry point. -/
theorem exists_text_of_generate (generated : r.generate entry precision = .ok program) :
    ∃ order type, r.linkOrder entry = .ok order ∧ (∃ m ∈ order, m.name = entry) ∧
      text order entry type precision = program := by
  cases linked : r.linkOrder entry with
  | error e =>
    rw [generate_of_linkOrder_error linked] at generated
    cases generated
  | ok order =>
    obtain ⟨m, hm, hlast⟩ := (isLinkOrder_of_linkOrder linked).last
    rw [generate_of_linkOrder_ok linked hlast] at generated
    obtain ⟨type, -, written⟩ := render_eq_ok_iff.1 generated
    exact ⟨order, type, rfl, ⟨m, List.mem_of_getLast? hlast, name_of_get? hm⟩, written⟩

/-- **A program mentions what its bodies mention.** Of a registry made of a library and any further
calls, a generated program mentions the sampler exactly if its third line declares it, which is exactly
if the body of a linked module mentions it. It mentions the size of a texel, which is what is kept of
it when it is compiled, exactly if such a body does. -/
theorem mentions_of_generate (h : ofSources library = .ok r)
    (generated : (r.after calls).generate entry precision = .ok program) :
    ∃ order, (r.after calls).linkOrder entry = .ok order ∧
      ("uTexture".toList <:+: program.toList ↔ ∃ m ∈ order, "uTexture".toList <:+: m.body.toList) ∧
      ((Text.lines program.toList)[2]? = some "uniform sampler2D uTexture;".toList ↔
        ∃ m ∈ order, "uTexture".toList <:+: m.body.toList) ∧
      ("uTexelSize".toList <:+: program.toList ↔
        ∃ m ∈ order, "uTexelSize".toList <:+: m.body.toList) ∧
      ∀ (π : Type) (compiled : π), (Pipeline.keep program compiled).usesTexelSize = true ↔
        "uTexelSize".toList <:+: program.toList := by
  obtain ⟨order, type, linked, entered, rfl⟩ := exists_text_of_generate generated
  have named : ∀ m ∈ order, m.name.toList <:+: m.body.toList := fun m hm =>
    (wellFormed_of_get?_after h ((isLinkOrder_of_linkOrder linked).held m hm)).infix_name_body
  refine ⟨order, linked, ?_, ?_, ?_, fun π compiled => ?_⟩
  · rw [foreign_texture.infix_text_iff_of_named named entered]
    exact or_iff_right_of_imp infix_texture_sampler
  · rw [third_line_iff, samples_iff]
  · rw [foreign_texelSize.infix_text_iff_of_named named entered]
    exact or_iff_right not_infix_texelSize_sampler
  · rw [Pipeline.keep, Text.mentions_iff, Identifier.texelSize]

/-- A library that mentions the size of a texel only in the name of a module. -/
def grained : List String :=
  ["export float uTexelSizeOf(vec2 p) { return p.x; }",
    "import uTexelSizeOf\nexport float edge() { return uTexelSizeOf(vUV); }"]

/-- The program that calls that module mentions the size of a texel, and does not sample. -/
theorem mentions_grained :
    ∃ r program, ofSources grained = .ok r ∧ (r.after []).generate "edge" .medium = .ok program ∧
      "uTexelSize".toList <:+: program.toList ∧ ¬ "uTexture".toList <:+: program.toList := by
  let grain : Module := ⟨"uTexelSizeOf", "float",
    "float uTexelSizeOf(vec2 p) { return p.x; }", []⟩
  let edge : Module := ⟨"edge", "float",
    "float edge() { return uTexelSizeOf(vUV); }", ["uTexelSizeOf"]⟩
  have linked : (ofSources grained).bind (fun r => (r.after []).linkOrder "edge") =
      .ok [grain, edge] := by
    decide +kernel
  cases hr : ofSources grained with
  | error e =>
    rw [hr] at linked
    cases linked
  | ok r =>
    rw [hr] at linked
    have generated : (r.after []).generate "edge" .medium =
        .ok (text [grain, edge] "edge" .float .medium) := by
      rw [generate_of_linkOrder_ok linked rfl, render_eq_ok_iff]
      exact ⟨.float, rfl, rfl⟩
    obtain ⟨order, same, texture, -, texel, -⟩ := mentions_of_generate hr generated
    obtain rfl : order = [grain, edge] := Except.ok.inj (same.symm.trans linked)
    refine ⟨r, _, rfl, generated, texel.2 ⟨grain, by simp, ?_⟩, fun h => ?_⟩
    · exact Text.mentions_iff.1 (by decide +kernel)
    · have samples : samples [grain, edge] = true := samples_iff.2 (texture.1 h)
      exact absurd samples (by decide +kernel)

end Registry

end ShaderLink
