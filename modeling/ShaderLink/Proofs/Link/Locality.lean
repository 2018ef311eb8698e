import Mathlib.Data.List.Forall2
import ShaderLink.Proofs.Program.Generate

/-!
# What linking depends on

Linking an entry point looks up the names that the entry point reaches and no other, and of each
module it only reads the imports. Two registries that agree there are walked in step: `Alike` relates
two walks with the same marks, the same modules placed, and the same imports pending in the modules
being followed. Every move keeps it (`step_alike`), because the import at hand is reached from the
entry point, as the sound walk says. So both walks end alike (`run_alike`).

**The law** (`linking_is_local`): registries that hold the same under all that an entry point reaches
link it to the same modules or fail with the same error, and generate the same program for it. Where
they agree in the imports alone, the names and the error are still the same. Registering what the
entry point does not reach changes nothing for it.

**What it does not establish.** A name that is reached in one registry need not be reached in the
other unless they agree on the names before it; nothing is said of registries that differ there.
-/

set_option autoImplicit false

namespace ShaderLink.Registry

/-- What the module under a name imports, if there is one. -/
def importsAt? (r : Registry) (n : String) : Option (List String) :=
  (r.get? n).map Module.imports

variable {r s : Registry} {n : String}

theorem get?_eq_none_of_importsAt? (h : s.importsAt? n = r.importsAt? n) (hn : r.get? n = none) :
    s.get? n = none := by
  simpa [importsAt?, hn] using h

/-- A module stands opposite a module of that name with the same imports. -/
theorem exists_of_importsAt? (h : s.importsAt? n = r.importsAt? n) {d : Module}
    (hd : r.get? n = some d) :
    ∃ d', s.get? n = some d' ∧ d'.imports = d.imports ∧ d'.name = d.name := by
  rw [importsAt?, importsAt?, hd, Option.map_some, Option.map_eq_some_iff] at h
  obtain ⟨d', hd', himports⟩ := h
  exact ⟨d', hd', himports, (name_of_get? hd').trans (name_of_get? hd).symm⟩

end ShaderLink.Registry

namespace ShaderLink.Link

variable {r s : Registry} {entry : String}

/-! ## Walks in step -/

/-- Two frames follow a module of the same name with the same imports pending. -/
structure Frame.Alike (f g : Frame) : Prop where
  name : g.owner.name = f.owner.name
  pending : g.pending = f.pending

/-- Two walks have met the same names, follow alike modules, and have placed the same names. -/
structure Walk.Alike (w v : Walk) : Prop where
  marks : v.marks = w.marks
  stack : List.Forall₂ Frame.Alike w.stack v.stack
  placed : v.placed = w.placed

/-- Two moves end with the same names, fail with the same error, or go on alike. -/
inductive Move.Alike : Move → Move → Prop
  | finished {order order' : Array Module}
      (names : order'.toList.map Module.name = order.toList.map Module.name) :
      Alike (.finished order) (.finished order')
  | failed (e : BuildError) : Alike (.failed e) (.failed e)
  | moved {w v : Walk} (h : w.Alike v) : Alike (.moved w) (.moved v)

namespace Walk

variable {w v : Walk} {m m' : Module} {below below' : List Frame}

theorem alike_start (name : m'.name = m.name) (imports : m'.imports = m.imports) :
    (start m).Alike (start m') where
  marks := by rw [start, start, name]
  stack := .cons ⟨name, imports⟩ .nil
  placed := rfl

theorem Alike.place (h : w.Alike v) (name : m'.name = m.name)
    (hbelow : List.Forall₂ Frame.Alike below below') :
    (w.place m below).Alike (v.place m' below') where
  marks := by rw [Walk.place, Walk.place, h.marks, name]
  stack := hbelow
  placed := by rw [placed_place, placed_place, h.placed, name]

theorem Alike.enter (h : w.Alike v) (name : m'.name = m.name) (imports : m'.imports = m.imports)
    (hbelow : List.Forall₂ Frame.Alike below below') :
    (w.enter m below).Alike (v.enter m' below') where
  marks := by rw [Walk.enter, Walk.enter, h.marks, name]
  stack := .cons ⟨name, imports⟩ hbelow
  placed := h.placed

/-- **Walks in step move in step**, where the registries have the same imports under all that the
entry point reaches. -/
theorem step_alike (same : ∀ n, r.Reaches entry n → s.importsAt? n = r.importsAt? n)
    (sound : w.Sound r entry) (h : w.Alike v) : (w.step r).Alike (v.step s) := by
  have hstack := h.stack
  match hs : w.stack, hs' : v.stack with
  | [], [] =>
    simp only [step, hs, hs']
    exact .finished h.placed
  | [], _ :: _ | _ :: _, [] =>
    rw [hs, hs'] at hstack
    cases hstack
  | ⟨m, pending⟩ :: below, ⟨m', pending'⟩ :: below' =>
    rw [hs, hs'] at hstack
    obtain ⟨⟨hname, hpending⟩, hbelow⟩ := List.forall₂_cons.1 hstack
    obtain rfl : pending' = pending := hpending
    have name : m'.name = m.name := hname
    cases pending' with
    | nil =>
      simp only [step, hs, hs']
      exact .moved (h.place name hbelow)
    | cons n rest =>
      -- the import at hand is one of a module on the path from the entry point
      obtain ⟨htrail, hconsumed⟩ := sound.top hs
      have hreach : r.Reaches entry n :=
        htrail.reaches.tail (Registry.imports_of_mem htrail.held hconsumed.mem_imports)
      cases hn : r.get? n with
      | none =>
        simp only [step, hs, hs', hn, Registry.get?_eq_none_of_importsAt? (same n hreach) hn, name]
        exact .failed _
      | some d =>
        obtain ⟨d', hn', himports, hname⟩ := Registry.exists_of_importsAt? (same n hreach) hn
        have hrest : List.Forall₂ Frame.Alike (⟨m, rest⟩ :: below) (⟨m', rest⟩ :: below') :=
          .cons ⟨name, rfl⟩ hbelow
        simp only [step, hs, hs', hn, hn', h.marks, hname]
        split
        · exact .moved ⟨rfl, hrest, h.placed⟩
        · exact .failed _
        · exact .moved (h.enter hname himports hrest)

/-- **Walks in step end in step**: the same names are placed, or both fail with the same error. -/
theorem run_alike (same : ∀ n, r.Reaches entry n → s.importsAt? n = r.importsAt? n)
    (sound : w.Sound r entry) (h : w.Alike v) :
    (v.run s).map (fun order => order.toList.map Module.name) =
      (w.run r).map fun order => order.toList.map Module.name := by
  induction w using Walk.run.induct (r := r) generalizing v with
  | case1 w order hw =>
    have hstep := step_alike same sound h
    generalize hv : v.step s = move at hstep
    rw [hw] at hstep
    cases hstep with
    | finished names =>
      rw [run_finished hw, run_finished hv]
      exact congrArg Except.ok names
  | case2 w e hw =>
    have hstep := step_alike same sound h
    generalize hv : v.step s = move at hstep
    rw [hw] at hstep
    cases hstep
    rw [run_failed hw, run_failed hv]
  | case3 w w' hw ih =>
    have hstep := step_alike same sound h
    generalize hv : v.step s = move at hstep
    rw [hw] at hstep
    cases hstep with
    | moved alike =>
      rw [run_moved hw, run_moved hv]
      exact ih (sound.moves (moves_of_step hw)) alike

end Walk

end ShaderLink.Link

namespace ShaderLink.Registry

open ShaderLink.Link

variable {r s : Registry} {entry : String}

/-! ## Agreement on what is reached -/

/-- The names of a link order depend only on the imports of what is reached. -/
theorem names_linkOrder_eq (same : ∀ n, r.Reaches entry n → s.importsAt? n = r.importsAt? n) :
    (s.linkOrder entry).map (List.map Module.name) =
      (r.linkOrder entry).map (List.map Module.name) := by
  cases hm : r.get? entry with
  | none =>
    have hm' := get?_eq_none_of_importsAt? (same entry .refl) hm
    simp only [linkOrder, hm, hm']
  | some m =>
    obtain ⟨m', hm', himports, hname⟩ := exists_of_importsAt? (same entry .refl) hm
    have hrun := Walk.run_alike same (Walk.sound_start hm) (Walk.alike_start hname himports)
    simp only [linkOrder, hm, hm']
    cases hr : (Walk.start m).run r <;> cases hs : (Walk.start m').run s <;> rw [hr, hs] at hrun <;>
      exact hrun

/-- Modules that are held can be looked up again by their names. -/
theorem filterMap_get?_names {l : List Module} (held : ∀ m ∈ l, r.get? m.name = some m) :
    (l.map Module.name).filterMap r.get? = l := by
  have lookup : ∀ m ∈ l, (r.get? ∘ Module.name) m = some m := held
  rw [List.filterMap_map, List.filterMap_congr lookup, List.filterMap_some]

/-- **Registries that hold the same under all that an entry point reaches link it alike.** -/
theorem linkOrder_eq_of_agree (agree : ∀ n, r.Reaches entry n → s.get? n = r.get? n) :
    s.linkOrder entry = r.linkOrder entry := by
  have names : (s.linkOrder entry).map (List.map Module.name) = _ :=
    names_linkOrder_eq fun n hn => congrArg (Option.map Module.imports) (agree n hn)
  cases hr : r.linkOrder entry with
  | error e =>
    rw [hr] at names
    cases hs : s.linkOrder entry with
    | error e' =>
      rw [hs] at names
      rw [Except.error.inj names]
    | ok order' =>
      rw [hs] at names
      cases names
  | ok order =>
    rw [hr] at names
    cases hs : s.linkOrder entry with
    | error e' =>
      rw [hs] at names
      cases names
    | ok order' =>
      rw [hs] at names
      have names : order'.map Module.name = order.map Module.name := Except.ok.inj names
      have horder := isLinkOrder_of_linkOrder hr
      -- both orders are looked up from the same names, in registries that agree on them
      have lookup : ∀ n ∈ order.map Module.name, s.get? n = r.get? n := by
        intro n hn
        obtain ⟨m, hm, rfl⟩ := List.mem_map.1 hn
        exact agree _ ((horder.mem_iff m).1 hm).2
      rw [← filterMap_get?_names (isLinkOrder_of_linkOrder hs).held, names,
        List.filterMap_congr lookup, filterMap_get?_names horder.held]

theorem generate_eq_of_agree (agree : ∀ n, r.Reaches entry n → s.get? n = r.get? n)
    (precision : Program.Precision) : s.generate entry precision = r.generate entry precision := by
  rw [generate, generate, linkOrder_eq_of_agree agree]

/-- Registering a module leaves alone what is reached, unless the module's name is reached. -/
theorem agree_of_register {source : String} {done : Registration}
    (h : r.register source = .ok (s, done)) (unreached : ¬ r.Reaches entry done.name) :
    ∀ n, r.Reaches entry n → s.get? n = r.get? n := by
  obtain ⟨m, -, rfl, rfl⟩ := register_eq_ok_iff.1 h
  intro n hn
  rw [get?_insert, if_neg]
  rintro rfl
  exact unreached hn

/-- **Linking is local to what the entry point reaches.** Registries that hold the same under all
names reached link and generate the entry point alike, whether that succeeds or fails; with the same
imports under these names they link it to the same names or fail with the same error; and registering
a module that is not reached, whether its name was taken or not, changes neither. -/
theorem linking_is_local (r s : Registry) (entry : String) :
    ((∀ n, r.Reaches entry n → s.get? n = r.get? n) →
      s.linkOrder entry = r.linkOrder entry ∧
        ∀ precision, s.generate entry precision = r.generate entry precision) ∧
    ((∀ n, r.Reaches entry n → s.importsAt? n = r.importsAt? n) →
      (s.linkOrder entry).map (List.map Module.name) =
        (r.linkOrder entry).map (List.map Module.name)) ∧
    ∀ source done, r.register source = .ok (s, done) → ¬ r.Reaches entry done.name →
      s.linkOrder entry = r.linkOrder entry ∧
        ∀ precision, s.generate entry precision = r.generate entry precision := by
  refine ⟨fun agree => ⟨linkOrder_eq_of_agree agree, generate_eq_of_agree agree⟩,
    names_linkOrder_eq, fun source done h unreached => ?_⟩
  have agree := agree_of_register h unreached
  exact ⟨linkOrder_eq_of_agree agree, generate_eq_of_agree agree⟩

/-- A scene that asks for a wave, and a frame around it that also asks for a border, which is not there. -/
def gallery : Registry :=
  [⟨"wave", "float", "float wave()", []⟩, ⟨"scene", "vec4", "vec4 scene()", ["wave"]⟩,
    ⟨"frame", "vec4", "vec4 frame()", ["scene", "border"]⟩].foldl insert empty

/-- The scene does not reach the frame. When the frame is registered anew, and now asks for itself, it
fails for another cause, and the scene links and is generated as before. A wave with another text makes
another order of the same names. -/
theorem linking_is_local_gallery :
    (∃ s done, gallery.register "import frame\nexport vec4 frame()" = .ok (s, done) ∧
      ¬ gallery.Reaches "scene" done.name ∧
      (∀ n, gallery.Reaches "scene" n → s.get? n = gallery.get? n) ∧
      gallery.linkOrder "frame" = .error (.unresolvedImport "border" (some "frame")) ∧
      s.linkOrder "frame" = .error (.circularDependency "frame") ∧
      (s.linkOrder "scene").map (List.map Module.name) = .ok ["wave", "scene"] ∧
      s.linkOrder "scene" = gallery.linkOrder "scene" ∧
      ∀ precision, s.generate "scene" precision = gallery.generate "scene" precision) ∧
    ∃ t : Registry, (∀ n, gallery.Reaches "scene" n → t.importsAt? n = gallery.importsAt? n) ∧
      t.linkOrder "scene" ≠ gallery.linkOrder "scene" ∧
      (t.linkOrder "scene").map (List.map Module.name) =
        (gallery.linkOrder "scene").map (List.map Module.name) := by
  have linked : gallery.linkOrder "scene" =
      .ok [⟨"wave", "float", "float wave()", []⟩, ⟨"scene", "vec4", "vec4 scene()", ["wave"]⟩] := by
    decide +kernel
  have reached : ∀ n, gallery.Reaches "scene" n → n = "wave" ∨ n = "scene" := by
    intro n hn
    simpa using (isLinkOrder_of_linkOrder linked).mem_names hn
  constructor
  · let frame : Module := ⟨"frame", "vec4", "vec4 frame()", ["frame"]⟩
    have parsed : Module.parse "import frame\nexport vec4 frame()" = .ok frame := by decide +kernel
    have registered : gallery.register "import frame\nexport vec4 frame()" =
        .ok (gallery.insert frame, ⟨"frame", true⟩) :=
      register_eq_ok_iff.2 ⟨frame, parsed, rfl, by decide +kernel⟩
    have unreached : ¬ gallery.Reaches "scene" "frame" := fun h => by simpa using reached "frame" h
    have agree := agree_of_register registered unreached
    obtain ⟨-, -, aside⟩ := linking_is_local gallery (gallery.insert frame) "scene"
    obtain ⟨links, generates⟩ := aside _ _ registered unreached
    refine ⟨_, _, registered, unreached, agree, by decide +kernel, by decide +kernel, ?_, links,
      generates⟩
    rw [links, linked]
    rfl
  · let t : Registry := gallery.insert ⟨"wave", "vec4", "vec4 wave()", []⟩
    have same : ∀ n, gallery.Reaches "scene" n → t.importsAt? n = gallery.importsAt? n := by
      intro n hn
      rcases reached n hn with rfl | rfl <;> decide +kernel
    refine ⟨t, same, by decide +kernel, ?_⟩
    exact (linking_is_local gallery t "scene").2.1 same

end ShaderLink.Registry
