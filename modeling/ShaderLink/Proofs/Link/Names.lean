import ShaderLink.Proofs.Link.Order
import ShaderLink.Proofs.Module.Names
import ShaderLink.Proofs.Registry.History

/-!
# Names that are exported and names that are imported

A module is registered under the name that its export declares, and another one asks for it by the name
on a line that imports.

**The law** (`import_leads_to_export`): whoever imports the name under which a module was exported gets
that name, character for character, and so that module, wherever both are held. An import is never
empty, so a module without a name is linked as an entry point or not at all.

**What it does not establish.** Names that differ in the blanks inside them are different names.
-/

set_option autoImplicit false

namespace ShaderLink.Registry

variable {r : Registry} {importer m : Module}

/-! ## What an import leads to -/

/-- **An import of one module leads to the other**, whatever is linked. -/
structure LeadsTo (r : Registry) (importer m : Module) : Prop where
  imports : r.Imports importer.name m.name
  /-- Wherever the importer is linked, the other module is linked before it, -/
  before : ∀ entry order, r.linkOrder entry = .ok order → importer ∈ order →
    ∃ front back, order = front ++ importer :: back ∧ m ∈ front
  /-- and no failure to link is put down to its name. -/
  known : ∀ entry requestedBy, r.linkOrder entry ≠ .error (.unresolvedImport m.name requestedBy)

theorem leadsTo_of_mem (held : m ∈ r.modules) (importing : importer ∈ r.modules)
    (asks : m.name ∈ importer.imports) : r.LeadsTo importer m where
  imports := imports_of_mem (mem_modules_iff.1 importing) asks
  before entry order linked mem := by
    have ordered := isLinkOrder_of_linkOrder linked
    obtain ⟨front, back, rfl⟩ := List.append_of_mem mem
    obtain ⟨d, hd, name⟩ := ordered.before front importer back rfl m.name asks
    have same : d = m :=
      eq_of_name_eq (ordered.held d (List.mem_append_left _ hd)) (mem_modules_iff.1 held) name
    exact ⟨front, back, rfl, same ▸ hd⟩
  known entry requestedBy failed := by
    have there : r.contains m.name = true := contains_iff.2 ⟨m, mem_modules_iff.1 held⟩
    have missing : r.contains m.name = false := by
      cases requestedBy with
      | none =>
        obtain ⟨name, missing⟩ := diagnosis_of_linkOrder failed
        exact missing
      | some p => exact (diagnosis_of_linkOrder failed).2.2.2
    rw [there] at missing
    cases missing

/-- A module without a name is reached from the empty name only: nothing imports it. -/
theorem eq_empty_of_reaches {entry : String} (wellFormed : ∀ n m, r.get? n = some m → m.WellFormed)
    (reached : r.Reaches entry "") : entry = "" := by
  rcases Relation.ReflTransGen.cases_tail reached with rfl | ⟨n, -, m, hm, asks⟩
  · rfl
  · exact ((wellFormed n m hm).empty_notMem_imports asks).elim

/-! ## The law -/

/-- **Names that are exported and names that are imported agree.** Where a text with an export asks on
one of its lines for the name under which another one is read, it is read with that import, in the place
of that line among those that import, and the import leads to the other module wherever both are held.
No text imports the empty name, so that a module of that name is linked for itself only. -/
theorem import_leads_to_export :
    (∀ (source : String) (m : Module) (other : String) (before : List (List Char))
        (line : List Char) (after : List (List Char)),
      Module.parse source = .ok m → m.name ≠ "" →
      (∃ piece ∈ Text.pieces other.toList, Line.startsWith "export " piece = true) →
      Text.pieces other.toList = before ++ line :: after → Line.Asks line m.name.toList →
      ∃ importer, Module.parse other = .ok importer ∧
        importer.imports[before.countP (Line.startsWith "import ")]? = some m.name ∧
        importer.imports.length =
          (Text.pieces other.toList).countP (Line.startsWith "import ") ∧
        ∀ r : Registry, m ∈ r.modules → importer ∈ r.modules → r.LeadsTo importer m) ∧
    (∀ (source : String) (m : Module), Module.parse source = .ok m → "" ∉ m.imports) ∧
    ∀ (library : List String) (r : Registry) (calls : List String) (entry : String)
        (order : List Module),
      ofSources library = .ok r → (r.after calls).linkOrder entry = .ok order →
      (∃ m ∈ order, m.name = "") → entry = "" := by
  refine ⟨?_, fun source m parsed => ?_, ?_⟩
  · intro source m other before line after parsed named exporting split asks
    have importable := (Module.wellFormed_of_parse parsed).importName named
    have reads := Line.read_of_asks asks importable
    obtain ⟨importer, imported⟩ := Module.exists_parse_iff_exists_startsWith.2 exporting
    have place := Module.getElem?_imports_of_parse imported split reads
    refine ⟨importer, imported, place, Module.length_imports_of_parse imported, ?_⟩
    exact fun r held importing => leadsTo_of_mem held importing (List.mem_of_getElem? place)
  · exact (Module.wellFormed_of_parse parsed).empty_notMem_imports
  · rintro library r calls entry order built linked ⟨m, hm, unnamed⟩
    have reached := (((isLinkOrder_of_linkOrder linked).mem_iff m).1 hm).2
    rw [unnamed] at reached
    exact eq_empty_of_reaches (fun n m => wellFormed_of_get?_after built) reached

/-- A text without a name, two that export `noise` and `wave`, and one that asks for both, for the
second with wide blanks and a carriage return. -/
def voices : List String :=
  ["export float",
    "export float noise()",
    "export float wave(float x)",
    "import noise\n\timport \u2003wave \r\nexport vec3 scene(vec2 p)"]

/-- The import of `wave` is the second one and puts it before the scene; the text without a name is
linked as its own entry point. -/
theorem import_leads_to_export_wave :
    ∃ r noise wave scene unnamed, ofSources voices = .ok r ∧ wave.name = "wave" ∧
      scene.imports[1]? = some wave.name ∧ scene.imports.length = 2 ∧ "" ∉ scene.imports ∧
      r.LeadsTo scene wave ∧ r.linkOrder "scene" = .ok [noise, wave, scene] ∧
      (r.after []).linkOrder "" = .ok [unnamed] ∧ unnamed.name = "" := by
  let noise : Module := ⟨"noise", "float", "float noise()", []⟩
  let wave : Module := ⟨"wave", "float", "float wave(float x)", []⟩
  let scene : Module := ⟨"scene", "vec3", "vec3 scene(vec2 p)", ["noise", "wave"]⟩
  let unnamed : Module := ⟨"", "float", "float", []⟩
  let exporting := "export vec3 scene(vec2 p)".toList
  have parsed : Module.parse voices[2] = .ok wave := by decide +kernel
  have imported : Module.parse voices[3] = .ok scene := by decide +kernel
  have asks : Line.Asks "\timport \u2003wave \r".toList wave.name.toList :=
    ⟨"\t".toList, "\u2003".toList, " \r".toList, List.all_eq_true.1 (by decide), by decide⟩
  obtain ⟨importer, same, place, number, leads⟩ := import_leads_to_export.1 voices[2] wave voices[3]
    ["import noise".toList] "\timport \u2003wave \r".toList [exporting] parsed (by decide)
    ⟨exporting, by decide +kernel, by decide +kernel⟩ (by decide +kernel) asks
  obtain rfl : importer = scene := Except.ok.inj (same.symm.trans imported)
  have linked : (ofSources voices).map (fun r => (r.modules, r.linkOrder "scene", r.linkOrder "")) =
      .ok ([unnamed, noise, scene, wave], .ok [noise, wave, scene], .ok [unnamed]) := by
    decide +kernel
  cases built : ofSources voices with
  | error e =>
    rw [built] at linked
    cases linked
  | ok r =>
    rw [built] at linked
    have contents := Except.ok.inj linked
    have modules : r.modules = [unnamed, noise, scene, wave] := congrArg (·.1) contents
    have order : r.linkOrder "scene" = .ok [noise, wave, scene] := congrArg (·.2.1) contents
    have entry : (r.after []).linkOrder "" = .ok [unnamed] := congrArg (·.2.2) contents
    have nameless : "" = "" :=
      import_leads_to_export.2.2 voices r [] "" [unnamed] built entry ⟨unnamed, by simp, rfl⟩
    exact ⟨r, noise, wave, scene, unnamed, rfl, rfl, place, number,
      import_leads_to_export.2.1 _ _ imported, leads r (by simp [modules]) (by simp [modules]), order,
      entry, nameless⟩

end ShaderLink.Registry
