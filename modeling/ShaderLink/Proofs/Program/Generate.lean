import Mathlib.Data.List.Forall2
import Mathlib.Data.List.Nodup
import ShaderLink.Program.Generate
import ShaderLink.Proofs.Link.Order

/-!
# What a generated program is made of

A program is generated in three stages, and each can fail: linking, the look at the type of the entry
point, and writing. What comes out is said here of the whole: which stage answers for a failure, and
which text a success is. The text is given part by part and to the letter (`Written`), its sections by
the order of the modules that they show (`SectionOrder`).

**The law** (`generate_follows_linkOrder`): generating fails as linking fails, or because of the type
of the entry point, and for no other reason; else it writes the modules that the entry point reaches,
one section each in the order of linking. Precision enters the first line only.

**What it does not establish.** A section shows its module's text as it is, so a text that looks like
a banner or like a `main` stands in the program unnoticed.
-/

set_option autoImplicit false

namespace ShaderLink.Program

/-! ## The text, part by part -/

/-- The first line of a program, with its line feed. -/
def firstLine : Precision → String
  | .low => "precision lowp float;\n"
  | .medium => "precision mediump float;\n"
  | .high => "precision highp float;\n"

/-- **The line of the sampler**: it is there exactly if the text of a module holds the sampler's name. -/
structure IsSampler (modules : List Module) (line : String) : Prop where
  sampled : (∃ m ∈ modules, "uTexture".toList <:+: m.body.toList) →
    line = "uniform sampler2D uTexture;\n"
  unsampled : (∀ m ∈ modules, ¬ "uTexture".toList <:+: m.body.toList) → line = ""

/-- **A section as it is written** under a banner of this width: a blank line, the name of the module
between dashes that fill what it leaves of the width, and the text of the module. -/
def IsSection (width : Nat) (m : Module) (shown : String) : Prop :=
  ∃ banner : String,
    Text.Framed ((width - m.name.utf8ByteSize + 1) / 2) m.name ((width - m.name.utf8ByteSize) / 2)
      banner ∧
    shown = "\n" ++ banner ++ "\n" ++ m.body ++ "\n"

/-- **The statements that belong to a type**, by the word for it: they call `entry` and turn what that
returns into a color. -/
inductive Converts (entry : String) : String → String → Prop
  | float : Converts entry "float"
      ("\tfloat v = " ++ entry ++ "();\n\tgl_FragColor = vec4(v, v, v, 1.0);")
  | vec2 : Converts entry "vec2" ("\tvec2 v = " ++ entry ++ "();\n\tgl_FragColor = vec4(v, 0.0, 1.0);")
  | vec3 : Converts entry "vec3" ("\tvec3 v = " ++ entry ++ "();\n\tgl_FragColor = vec4(v, 1.0);")
  | vec4 : Converts entry "vec4" ("\tgl_FragColor = " ++ entry ++ "();")

/-- **A program as it is written** over these modules, for an entry point that returns a value of this
type: two lines, that of the sampler if there is one, a section for each module in order, and a `main`
of the statements for the type. All sections have banners of one width, which is four more than the
longest name takes, counted as twenty bytes at least. -/
def Written (modules : List Module) (entry returnType : String) (precision : Precision)
    (program : String) : Prop :=
  ∃ (sampler : String) (sections : List String) (statements : String),
    IsSampler modules sampler ∧
    List.Forall₂ (IsSection (max 20 ((modules.map fun m => m.name.utf8ByteSize).max?.getD 0) + 4))
      modules sections ∧
    Converts entry returnType statements ∧
    program = firstLine precision ++ "varying vec2 vUV;\n" ++ sampler ++ String.join sections ++
      ("\nvoid main() ".push '{' ++ "\n" ++ statements ++ "\n".push '}' ++ "\n")

/-! ## What is written is the text -/

theorem samples_iff {modules : List Module} :
    samples modules = true ↔ ∃ m ∈ modules, "uTexture".toList <:+: m.body.toList := by
  simp only [samples, List.any_eq_true, Text.mentions_iff, Identifier.texture]

theorem preamble_eq (precision : Precision) :
    preamble precision = firstLine precision ++ "varying vec2 vUV;\n" := by
  cases precision <;> decide

theorem isSampler_iff {modules : List Module} {line : String} :
    IsSampler modules line ↔ sampler modules = line := by
  by_cases h : samples modules = true
  · rw [sampler, if_pos h]
    rw [samples_iff] at h
    refine ⟨fun written => (written.sampled h).symm, ?_⟩
    rintro rfl
    exact ⟨fun _ => rfl, fun none => absurd h (by simpa using none)⟩
  · rw [sampler, if_neg h]
    rw [samples_iff] at h
    have none : ∀ m ∈ modules, ¬ "uTexture".toList <:+: m.body.toList :=
      fun m hm mentions => h ⟨m, hm, mentions⟩
    refine ⟨fun written => (written.unsampled none).symm, ?_⟩
    rintro rfl
    exact ⟨fun some => absurd some h, fun _ => rfl⟩

theorem isSection_iff {width : Nat} {m : Module} {shown : String} :
    IsSection width m shown ↔ moduleSection width m = shown := by
  constructor
  · rintro ⟨banner, framed, rfl⟩
    rw [framed.unique (Text.framed_banner m.name width)]
    rfl
  · rintro rfl
    exact ⟨Text.banner m.name width, Text.framed_banner m.name width, rfl⟩

theorem forall₂_isSection_iff {width : Nat} {modules : List Module} {shown : List String} :
    List.Forall₂ (IsSection width) modules shown ↔ modules.map (moduleSection width) = shown := by
  rw [← List.forall₂_eq_eq_eq, List.forall₂_map_left_iff]
  simp only [← isSection_iff]

/-- The words for types that become a color. -/
theorem exists_keyword_iff {word : String} :
    (∃ type : OutputType, word = type.keyword) ↔ word ∈ ["float", "vec2", "vec3", "vec4"] := by
  constructor
  · rintro ⟨type, rfl⟩
    cases type <;> decide
  · intro h
    simp only [List.mem_cons, List.not_mem_nil, or_false] at h
    rcases h with rfl | rfl | rfl | rfl
    exacts [⟨.float, rfl⟩, ⟨.vec2, rfl⟩, ⟨.vec3, rfl⟩, ⟨.vec4, rfl⟩]

/-- A word has one conversion. -/
theorem Converts.unique {entry word word' a b : String} (ha : Converts entry word a)
    (hb : Converts entry word' b) (same : word = word') : a = b := by
  cases ha <;> cases hb <;> first | rfl | exact absurd same (by decide)

theorem converts_statements (entry : String) (type : OutputType) :
    Converts entry type.keyword (type.statements entry) := by
  cases type
  exacts [.float, .vec2, .vec3, .vec4]

theorem converts_iff {entry word statements : String} :
    Converts entry word statements ↔
      ∃ type : OutputType, word = type.keyword ∧ type.statements entry = statements := by
  constructor
  · intro converts
    have known : ∃ type : OutputType, word = type.keyword := by
      rw [exists_keyword_iff]
      cases converts <;> decide
    obtain ⟨type, rfl⟩ := known
    exact ⟨type, rfl, (converts_statements entry type).unique converts rfl⟩
  · rintro ⟨type, rfl, rfl⟩
    exact converts_statements entry type

theorem text_eq (modules : List Module) (entry : String) (type : OutputType) (precision : Precision) :
    text modules entry type precision =
      firstLine precision ++ "varying vec2 vUV;\n" ++ sampler modules ++ sections modules ++
        mainFunction entry type := by
  rw [text, preamble_eq]

/-- **What is written over modules is their text**, and no other text is. -/
theorem written_iff {modules : List Module} {entry returnType program : String} {precision : Precision} :
    Written modules entry returnType precision program ↔
      ∃ type : OutputType, returnType = type.keyword ∧ text modules entry type precision = program := by
  simp only [Written, isSampler_iff, forall₂_isSection_iff, converts_iff, ← Text.bannerWidth_eq, text_eq]
  constructor
  · rintro ⟨_, _, _, rfl, rfl, ⟨type, rfl, rfl⟩, rfl⟩
    exact ⟨type, rfl, rfl⟩
  · rintro ⟨type, rfl, rfl⟩
    exact ⟨_, _, _, rfl, rfl, ⟨type, rfl, rfl⟩, rfl⟩

theorem render_eq_ok_iff_written {modules : List Module} {entry returnType program : String}
    {precision : Precision} :
    render modules entry returnType precision = .ok program ↔
      Written modules entry returnType precision program := by
  rw [render_eq_ok_iff, written_iff]

/-- The text of a program behind its first line does not depend on precision. -/
theorem exists_text_eq_firstLine_append (modules : List Module) (entry : String) (type : OutputType) :
    ∃ rest, ∀ precision, text modules entry type precision = firstLine precision ++ rest := by
  refine ⟨"varying vec2 vUV;\n" ++ sampler modules ++ sections modules ++ mainFunction entry type,
    fun precision => ?_⟩
  rw [text_eq]
  simp only [String.append_assoc]

/-- The first line is one line: a line feed ends it, and there is none before. -/
theorem exists_firstLine_eq (precision : Precision) :
    ∃ line, '\n' ∉ line ∧ (firstLine precision).toList = line ++ ['\n'] := by
  cases precision
  · exact ⟨"precision lowp float;".toList, by decide, by decide⟩
  · exact ⟨"precision mediump float;".toList, by decide, by decide⟩
  · exact ⟨"precision highp float;".toList, by decide, by decide⟩

theorem render_eq_error_iff {modules : List Module} {entry returnType : String}
    {precision : Precision} {e : BuildError} :
    render modules entry returnType precision = .error e ↔
      e = .unsupportedExportType entry returnType ∧
        returnType ∉ ["float", "vec2", "vec3", "vec4"] := by
  rw [← exists_keyword_iff]
  cases hr : render modules entry returnType precision with
  | ok program =>
    obtain ⟨type, hword, -⟩ := render_eq_ok_iff.1 hr
    simp only [reduceCtorEq, false_iff, not_and, not_not]
    exact fun _ => ⟨type, hword⟩
  | error e' =>
    have hnone : ¬ ∃ type : OutputType, returnType = type.keyword := by
      rintro ⟨type, hword⟩
      rw [render_eq_ok_iff.2 ⟨type, hword, rfl⟩] at hr
      cases hr
    unfold render at hr
    split at hr
    · cases hr
    · obtain rfl := Except.error.inj hr
      simp [hnone, eq_comm]

end ShaderLink.Program

namespace ShaderLink.Registry

open ShaderLink.Program

/-! ## The order of the sections -/

/-- **The sections of an entry point's program**, by the modules that they show: each module that the
entry point reaches has exactly one, and no other module has any; what a module imports is shown
before it, and the entry point is shown last. -/
structure SectionOrder (r : Registry) (entry : String) (shown : List Module) : Prop where
  once : ∀ n, r.Reaches entry n → ∃ m, r.get? n = some m ∧ ∃! i : Nat, shown[i]? = some m
  only : ∀ m ∈ shown, r.get? m.name = some m ∧ r.Reaches entry m.name
  before : ∀ (i : Nat) (m : Module), shown[i]? = some m → ∀ n ∈ m.imports,
    ∃ (j : Nat) (d : Module), j < i ∧ shown[j]? = some d ∧ d.name = n
  last : ∃ m, r.get? entry = some m ∧ m.name = entry ∧ shown.getLast? = some m

variable {r : Registry} {entry : String} {order : List Module}

/-- An order for an entry point orders the sections of its program. -/
theorem IsLinkOrder.sectionOrder (h : r.IsLinkOrder entry order) : r.SectionOrder entry order where
  once n hn := by
    obtain ⟨m, hm, rfl⟩ := List.mem_map.1 (h.mem_names hn)
    obtain ⟨i, hi⟩ := List.mem_iff_getElem?.1 hm
    refine ⟨m, h.held m hm, i, hi, fun j hj => ?_⟩
    obtain ⟨hlt, -⟩ := List.getElem?_eq_some_iff.1 hj
    exact (List.getElem?_inj hlt (List.Nodup.of_map _ h.nodup)).1 (hj.trans hi.symm)
  only m hm := (h.mem_iff m).1 hm
  before i m hi n hn := by
    obtain ⟨hlt, hget⟩ := List.getElem?_eq_some_iff.1 hi
    have hsplit : order = order.take i ++ m :: order.drop (i + 1) := by
      rw [← hget, List.getElem_cons_drop, List.take_append_drop]
    obtain ⟨d, hd, hname⟩ := h.before _ _ _ hsplit n hn
    obtain ⟨j, hj⟩ := List.mem_iff_getElem?.1 hd
    obtain ⟨hji, -⟩ := List.getElem?_eq_some_iff.1 hj
    rw [List.length_take] at hji
    have hj' : (order.take i)[j]? = order[j]? := List.getElem?_take_of_lt (by omega)
    exact ⟨j, d, by omega, hj' ▸ hj, hname⟩
  last := by
    obtain ⟨m, hm, hlast⟩ := h.last
    exact ⟨m, hm, name_of_get? hm, hlast⟩

/-! ## Generating -/

theorem generate_of_linkOrder_error {e : BuildError} (h : r.linkOrder entry = .error e)
    (precision : Precision) : r.generate entry precision = .error e := by
  rw [generate, h]

/-- An entry point that links is written, with the type of its own module. -/
theorem generate_of_linkOrder_ok {m : Module} (h : r.linkOrder entry = .ok order)
    (hlast : order.getLast? = some m) (precision : Precision) :
    r.generate entry precision = render order entry m.returnType precision := by
  rw [generate, h]
  simp only [hlast]

/-- **Generating follows linking.** Where linking fails, generating fails in the same way. Where it
gives an order, the order is never empty and its last module is the entry point's own, whose type
decides: generating fails exactly if that type does not become a color, and names it; otherwise it
writes the modules of the order, section by section, with the statements for that type. Programs that
differ in precision fail alike, or are the same behind their first line. -/
theorem generate_follows_linkOrder (r : Registry) (entry : String) :
    (∀ e, r.linkOrder entry = .error e → ∀ precision, r.generate entry precision = .error e) ∧
    (∀ order, r.linkOrder entry = .ok order →
      ∃ m, r.get? entry = some m ∧ order.getLast? = some m ∧ r.SectionOrder entry order ∧
        (∀ precision e, r.generate entry precision = .error e ↔
          e = .unsupportedExportType entry m.returnType ∧
            m.returnType ∉ ["float", "vec2", "vec3", "vec4"]) ∧
        (m.returnType ∈ ["float", "vec2", "vec3", "vec4"] → ∀ precision, ∃ program,
          r.generate entry precision = .ok program ∧
            Written order entry m.returnType precision program)) ∧
    ((∃ e, ∀ precision, r.generate entry precision = .error e) ∨
      ∃ rest, ∀ precision, r.generate entry precision = .ok (firstLine precision ++ rest) ∧
        ∃ line, '\n' ∉ line ∧ (firstLine precision).toList = line ++ ['\n']) := by
  refine ⟨fun e h => generate_of_linkOrder_error h, fun order h => ?_, ?_⟩
  · have horder := isLinkOrder_of_linkOrder h
    obtain ⟨m, hm, hlast⟩ := horder.last
    refine ⟨m, hm, hlast, horder.sectionOrder, fun precision e => ?_, fun hword precision => ?_⟩
    · rw [generate_of_linkOrder_ok h hlast, render_eq_error_iff]
    · obtain ⟨type, htype⟩ := exists_keyword_iff.2 hword
      have written : Written order entry m.returnType precision (text order entry type precision) :=
        written_iff.2 ⟨type, htype, rfl⟩
      refine ⟨_, ?_, written⟩
      rw [generate_of_linkOrder_ok h hlast]
      exact render_eq_ok_iff_written.2 written
  · cases h : r.linkOrder entry with
    | error e => exact .inl ⟨e, generate_of_linkOrder_error h⟩
    | ok order =>
      obtain ⟨m, -, hlast⟩ := (isLinkOrder_of_linkOrder h).last
      by_cases htype : ∃ type : OutputType, m.returnType = type.keyword
      · obtain ⟨type, htype⟩ := htype
        obtain ⟨rest, hrest⟩ := exists_text_eq_firstLine_append order entry type
        refine .inr ⟨rest, fun precision => ⟨?_, exists_firstLine_eq precision⟩⟩
        rw [generate_of_linkOrder_ok h hlast, render_eq_ok_iff]
        exact ⟨type, htype, hrest precision⟩
      · refine .inl ⟨.unsupportedExportType entry m.returnType, fun precision => ?_⟩
        rw [generate_of_linkOrder_ok h hlast, render_eq_error_iff, ← exists_keyword_iff]
        exact ⟨rfl, htype⟩

end ShaderLink.Registry
