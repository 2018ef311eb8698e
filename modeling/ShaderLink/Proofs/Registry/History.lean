import Mathlib.Data.List.Dedup
import Mathlib.Data.List.Induction
import ShaderLink.Pipeline.Run
import ShaderLink.Proofs.Lists
import ShaderLink.Proofs.Module.Spelling

/-!
# What registrations come to

A registry is called with one text after another, its library first. Some of these texts are no
modules, some are modules whose names are taken. What is held afterwards is told by the texts alone:
of those with one name the latest (`Latest`).

**The law** (`registry_holds_latest`): after every history a registry holds under each name the module
of the latest text of that name, and all that can be asked of it agrees with that. A text that is no
module changes nothing. Each call that finds its name free logs so, and there are as many of these
lines as modules held. Histories with the same latest texts link and generate alike.

The proof goes along the history from its end: the last call decides about its own name and leaves
all others to the calls before it (`get?_call`, `latest_concat_iff`).
-/

set_option autoImplicit false

namespace ShaderLink.Module

/-- A text exports if one of its lines does. -/
def Exports (source : String) : Prop :=
  ∃ d, .exports d ∈ readLines source

/-- The name under which a text is registered, if it is a module. -/
def nameOf? (source : String) : Option String :=
  (parse source).toOption.map Module.name

variable {source n : String} {m : Module}

theorem exported?_eq_none_iff {ls : List Line} : exported? ls = none ↔ ∀ d, .exports d ∉ ls := by
  constructor
  · intro h d hd
    rw [exported?, Option.map_eq_none_iff, List.getLast?_eq_none_iff, List.filterMap_eq_nil_iff] at h
    cases h _ hd
  · exact exported?_eq_none

/-- **A text is a module exactly if it exports.** -/
theorem parse_eq_error_iff_not_exports {e : BuildError} :
    parse source = .error e ↔ ¬ Exports source ∧ e = .missingExport source := by
  rw [parse_eq_error_iff, exported?_eq_none_iff, Exports, not_exists]

theorem exports_of_parse (h : parse source = .ok m) : Exports source := by
  by_contra hn
  rw [parse_eq_error_iff_not_exports.2 ⟨hn, rfl⟩] at h
  cases h

theorem nameOf?_of_parse (h : parse source = .ok m) : nameOf? source = some m.name := by
  rw [nameOf?, h]
  rfl

theorem nameOf?_of_error {e : BuildError} (h : parse source = .error e) : nameOf? source = none := by
  rw [nameOf?, h]
  rfl

theorem exists_parse_of_nameOf? (h : nameOf? source = some n) :
    ∃ m, parse source = .ok m ∧ m.name = n := by
  cases hp : parse source with
  | error e =>
    rw [nameOf?_of_error hp] at h
    cases h
  | ok m =>
    rw [nameOf?_of_parse hp, Option.some.injEq] at h
    exact ⟨m, rfl, h⟩

end ShaderLink.Module

namespace ShaderLink.Registry

variable {r : Registry} {source n : String} {m : Module} {sources : List String}

/-! ## One call -/

/-- What a call to register a text comes to. A text that is no module leaves the registry as it is,
and nothing is logged of it. -/
def call (r : Registry) (source : String) : Outcome Registry BuildError String :=
  match r.register source with
  | .ok (r', done) => ⟨.ok done.name, r', [done.logLine]⟩
  | .error e => ⟨.error e, r, []⟩

theorem call_of_ok (r : Registry) (h : Module.parse source = .ok m) :
    r.call source = ⟨.ok m.name, r.insert m, [Registration.logLine ⟨m.name, r.contains m.name⟩]⟩ := by
  rw [call, register_eq_ok_iff.2 ⟨m, h, rfl, rfl⟩]

theorem call_of_error (r : Registry) {e : BuildError} (h : Module.parse source = .error e) :
    r.call source = ⟨.error e, r, []⟩ := by
  rw [call, register_eq_error_iff.2 h]

/-- A pipeline registers by a call to its registry. -/
theorem run_register_eq_call {β ι π : Type} (source : String) (p : Pipeline β ι π) :
    (Pipeline.register source).run p =
      let o := p.registry.call source
      ⟨o.result.mapError .build, { p with registry := o.state }, o.log⟩ := by
  rcases h : p.registry.register source with e | ⟨r, done⟩
  · rw [Pipeline.run_register_error h, call, h]
    rfl
  · rw [Pipeline.run_register_ok h, call, h]
    rfl

/-- A call decides about the name of its text and about no other. -/
theorem get?_call (r : Registry) (source n : String) :
    (r.call source).state.get? n =
      if Module.nameOf? source = some n then (Module.parse source).toOption else r.get? n := by
  cases h : Module.parse source with
  | error e => rw [call_of_error r h, Module.nameOf?_of_error h, if_neg nofun]
  | ok m =>
    rw [call_of_ok r h, Module.nameOf?_of_parse h, get?_insert]
    simp only [Option.some.injEq]
    rfl

/-! ## One call after another -/

/-- The registry after calls, whatever became of each. -/
def after (r : Registry) (sources : List String) : Registry :=
  sources.foldl (fun r source => (r.call source).state) r

/-- The lines logged by calls. -/
def logAfter (r : Registry) : List String → List Log.Entry
  | [] => []
  | source :: rest => (r.call source).log ++ (r.call source).state.logAfter rest

@[simp] theorem after_nil (r : Registry) : r.after [] = r := rfl

@[simp] theorem after_cons (r : Registry) (source : String) (rest : List String) :
    r.after (source :: rest) = (r.call source).state.after rest := rfl

theorem after_append (r : Registry) (sources more : List String) :
    r.after (sources ++ more) = (r.after sources).after more :=
  List.foldl_append

theorem logAfter_append (r : Registry) (sources more : List String) :
    r.logAfter (sources ++ more) = r.logAfter sources ++ (r.after sources).logAfter more := by
  induction sources generalizing r with
  | nil => rfl
  | cons source rest ih =>
    rw [List.cons_append, logAfter, logAfter, ih, List.append_assoc, after_cons]

/-! ## The library -/

theorem registerAll_of_ok (h : Module.parse source = .ok m) (rest : List String) :
    r.registerAll (source :: rest) = ((r.insert m).registerAll rest).map fun p =>
      (p.1, ⟨m.name, r.contains m.name⟩ :: p.2) := by
  rw [registerAll, register_eq_ok_iff.2 ⟨m, h, rfl, rfl⟩]

theorem registerAll_of_error {e : BuildError} (h : Module.parse source = .error e)
    (rest : List String) : r.registerAll (source :: rest) = .error e := by
  rw [registerAll, register_eq_error_iff.2 h]

/-- A library that is registered is registered by one call after another. -/
theorem registerAll_eq_after {r' : Registry} {done : List Registration}
    (h : r.registerAll sources = .ok (r', done)) :
    r' = r.after sources ∧ done.map Registration.logLine = r.logAfter sources := by
  induction sources generalizing r done with
  | nil =>
    cases h
    exact ⟨rfl, rfl⟩
  | cons source rest ih =>
    cases hs : Module.parse source with
    | error e =>
      rw [registerAll_of_error hs] at h
      cases h
    | ok m =>
      rw [registerAll_of_ok hs] at h
      rw [after_cons, logAfter, call_of_ok r hs]
      rcases hrest : (r.insert m).registerAll rest with e | ⟨r₂, more⟩
      · rw [hrest] at h
        cases h
      · rw [hrest] at h
        cases h
        obtain ⟨rfl, hlog⟩ := ih hrest
        exact ⟨rfl, congrArg (_ :: ·) hlog⟩

/-- **A library is refused for its first text that exports nothing**, and for no other reason. -/
theorem registerAll_eq_error_iff {e : BuildError} :
    r.registerAll sources = .error e ↔
      ∃ front source back, sources = front ++ source :: back ∧ (∀ s ∈ front, Module.Exports s) ∧
        ¬ Module.Exports source ∧ e = .missingExport source := by
  induction sources generalizing r with
  | nil => simp [registerAll]
  | cons source rest ih =>
    cases hs : Module.parse source with
    | error e' =>
      obtain ⟨hnone, rfl⟩ := Module.parse_eq_error_iff_not_exports.1 hs
      rw [registerAll_of_error hs]
      constructor
      · intro h
        exact ⟨[], source, rest, rfl, by simp, hnone, (Except.error.inj h).symm⟩
      · rintro ⟨front, source', back, split, hfront, -, rfl⟩
        -- the first text is no module, so that no text stands in front of the one that is refused
        cases front with
        | nil =>
          cases split
          rfl
        | cons s front =>
          obtain ⟨rfl, -⟩ := List.cons.inj split
          exact (hnone (hfront source List.mem_cons_self)).elim
    | ok m =>
      have hexports := Module.exports_of_parse hs
      have hrest : r.registerAll (source :: rest) = .error e ↔
          (r.insert m).registerAll rest = .error e := by
        rw [registerAll_of_ok hs]
        cases (r.insert m).registerAll rest <;> simp [Except.map]
      rw [hrest, ih]
      constructor
      · rintro ⟨front, source', back, rfl, hfront, hnone, rfl⟩
        have hall := List.forall_mem_cons.2 ⟨hexports, hfront⟩
        exact ⟨source :: front, source', back, rfl, hall, hnone, rfl⟩
      · rintro ⟨front, source', back, split, hfront, hnone, rfl⟩
        cases front with
        | nil =>
          obtain ⟨rfl, -⟩ := List.cons.inj split
          exact (hnone hexports).elim
        | cons s front =>
          obtain ⟨-, rfl⟩ := List.cons.inj split
          exact ⟨front, source', back, rfl, (List.forall_mem_cons.1 hfront).2, hnone, rfl⟩

theorem ofSources_eq_error_iff {e : BuildError} :
    ofSources sources = .error e ↔
      ∃ front source back, sources = front ++ source :: back ∧ (∀ s ∈ front, Module.Exports s) ∧
        ¬ Module.Exports source ∧ e = .missingExport source := by
  rw [← registerAll_eq_error_iff (r := empty), ofSources]
  cases empty.registerAll sources <;> simp [Except.map]

/-! ## The latest text of a name -/

/-- Of the texts that are modules of that name, this one was registered last. -/
def Latest (sources : List String) (n source : String) : Prop :=
  ∃ front back, sources = front ++ source :: back ∧ Module.nameOf? source = some n ∧
    ∀ later ∈ back, Module.nameOf? later ≠ some n

theorem not_latest_nil : ¬ Latest [] n source := by
  rintro ⟨front, back, split, -⟩
  simp at split

/-- **The text at the end is the latest of its name**; for other names it counts for nothing. -/
theorem latest_concat_iff {last : String} :
    Latest (sources ++ [last]) n source ↔
      if Module.nameOf? last = some n then source = last else Latest sources n source := by
  split
  · next hlast =>
    constructor
    · rintro ⟨front, back, split, -, hback⟩
      obtain ⟨-, rfl, -⟩ | ⟨back, rfl, -⟩ := split_concat split
      · rfl
      · exact (hback last (by simp) hlast).elim
    · rintro rfl
      exact ⟨sources, [], rfl, hlast, by simp⟩
  · next hlast =>
    constructor
    · rintro ⟨front, back, split, hname, hback⟩
      obtain ⟨-, rfl, -⟩ | ⟨back, rfl, rfl⟩ := split_concat split
      · exact (hlast hname).elim
      · exact ⟨front, back, rfl, hname, fun later hl => hback later (List.mem_append_left _ hl)⟩
    · rintro ⟨front, back, rfl, hname, hback⟩
      refine ⟨front, back ++ [last], by simp, hname, ?_⟩
      rw [List.forall_mem_append, List.forall_mem_singleton]
      exact ⟨hback, hlast⟩

/-- **What a registry holds after calls** is the module of the latest text of each name. -/
theorem get?_after_eq_some_iff :
    (empty.after sources).get? n = some m ↔
      ∃ source, Latest sources n source ∧ Module.parse source = .ok m := by
  induction sources using List.reverseRecOn with
  | nil => simp [not_latest_nil]
  | append_singleton sources last ih =>
    rw [after_append, after_cons, after_nil, get?_call]
    simp only [latest_concat_iff]
    split
    · simp only [exists_eq_left]
      cases Module.parse last <;> simp [Except.toOption]
    · exact ih

/-- Nothing is held under a name that no text has. -/
theorem get?_after_eq_none_iff :
    (empty.after sources).get? n = none ↔ ∀ source ∈ sources, Module.nameOf? source ≠ some n := by
  induction sources using List.reverseRecOn with
  | nil => simp
  | append_singleton sources last ih =>
    rw [after_append, after_cons, after_nil, get?_call, List.forall_mem_append,
      List.forall_mem_singleton]
    split
    · next hlast =>
      obtain ⟨m, hm, -⟩ := Module.exists_parse_of_nameOf? hlast
      simp [hm, hlast, Except.toOption]
    · next hlast => simp [ih, hlast]

/-! ## Names, modules and their number -/

theorem nodup_names (r : Registry) : r.names.Nodup :=
  Std.ExtTreeMap.nodup_keys

/-- The modules are listed in the order of their names. -/
theorem map_name_modules (r : Registry) : r.modules.map Module.name = r.names := by
  rw [modules, names, List.map_map, ← Std.ExtTreeMap.map_fst_toList_eq_keys]
  refine List.map_congr_left fun p hp => ?_
  exact r.name_eq p.1 p.2 (Std.ExtTreeMap.mem_toList_iff_getElem?_eq_some.1 hp)

theorem length_names (r : Registry) : r.names.length = r.size :=
  Std.ExtTreeMap.length_keys

theorem isEmpty_iff {r : Registry} : r.isEmpty = true ↔ ∀ n, r.get? n = none := by
  rw [isEmpty, beq_iff_eq, ← length_names, List.length_eq_zero_iff, List.eq_nil_iff_forall_not_mem]
  simp only [mem_names_iff, contains_eq_isSome, Option.not_isSome_iff_eq_none]

theorem mem_modules_iff_exists {r : Registry} {m : Module} :
    m ∈ r.modules ↔ ∃ n, r.get? n = some m := by
  rw [mem_modules_iff]
  constructor
  · intro h
    exact ⟨_, h⟩
  · rintro ⟨n, h⟩
    rwa [name_of_get? h]

/-- There are as many modules held as there are names of texts. -/
theorem size_after :
    (empty.after sources).size = (sources.filterMap Module.nameOf?).dedup.length := by
  have hperm : (empty.after sources).names.Perm (sources.filterMap Module.nameOf?).dedup := by
    refine (List.perm_ext_iff_of_nodup (nodup_names _) (List.nodup_dedup _)).2 fun n => ?_
    rw [List.mem_dedup, List.mem_filterMap, mem_names_iff, contains_eq_isSome,
      Option.isSome_iff_ne_none, ne_eq, get?_after_eq_none_iff]
    push Not
    rfl
  rw [← length_names, hperm.length_eq]

/-! ## The lines logged -/

/-- Whether a line says that a module was registered under a name that was free. -/
def reportsNew (line : Log.Entry) : Bool :=
  "registered".toList.isPrefixOf line.text.toList

theorem reportsNew_logLine (done : Registration) : reportsNew done.logLine = !done.replaced := by
  obtain ⟨n, _ | _⟩ := done <;> simp [reportsNew, Registration.logLine, List.isPrefixOf]

/-- **There are as many modules held as lines on free names.** -/
theorem size_after_eq_countP :
    (empty.after sources).size = (empty.logAfter sources).countP reportsNew := by
  induction sources using List.reverseRecOn with
  | nil => rfl
  | append_singleton sources last ih =>
    rw [after_append, after_cons, after_nil, logAfter_append, List.countP_append, ← ih, logAfter,
      logAfter, List.append_nil]
    cases h : Module.parse last with
    | error e => rw [call_of_error _ h, List.countP_nil, Nat.add_zero]
    | ok m =>
      rw [call_of_ok _ h, List.countP_singleton, reportsNew_logLine, size_insert]
      cases (empty.after sources).contains m.name <;> rfl

/-! ## The law -/

/-- **What can be asked of a registry** that holds the modules of the latest of these texts. -/
structure HoldsLatest (r : Registry) (sources : List String) : Prop where
  /-- Under a name stands the module of the latest text of that name, -/
  held : ∀ n m, r.get? n = some m ↔ ∃ source, Latest sources n source ∧ Module.parse source = .ok m
  /-- and none if no text has it. -/
  free : ∀ n, r.get? n = none ↔ ∀ source ∈ sources, Module.nameOf? source ≠ some n
  own : ∀ n m, r.get? n = some m → m.name = n
  names : r.names.Nodup ∧ ∀ n, n ∈ r.names ↔ ∃ m, r.get? n = some m
  modules : r.modules.Nodup ∧ ∀ m, m ∈ r.modules ↔ ∃ n, r.get? n = some m
  size : r.size = (sources.filterMap Module.nameOf?).dedup.length ∧ r.names.length = r.size ∧
    r.modules.length = r.size
  contains : ∀ n, r.contains n = true ↔ ∃ m, r.get? n = some m
  isEmpty : r.isEmpty = true ↔ ∀ n, r.get? n = none

/-- **How a registry receives a text**: the call fails exactly for a text that exports nothing, which it
names, and then nothing is changed or logged; otherwise it logs whether the name was free. -/
structure Receives (r : Registry) (source : String) : Prop where
  fails : ∀ e, (r.call source).result = .error e ↔ ¬ Module.Exports source ∧ e = .missingExport source
  unchanged : ∀ e, (r.call source).result = .error e →
    (r.call source).state = r ∧ (r.call source).log = []
  named : ∀ n, (r.call source).result = .ok n ↔ Module.nameOf? source = some n
  fresh : ∀ n, (r.call source).result = .ok n → r.get? n = none →
    (r.call source).log = [⟨.debug, "registered shader module `" ++ n ++ "`"⟩]
  taken : ∀ n m, (r.call source).result = .ok n → r.get? n = some m →
    (r.call source).log = [⟨.debug, "replaced shader module `" ++ n ++ "`"⟩]

theorem holdsLatest_after (sources : List String) : (empty.after sources).HoldsLatest sources where
  held _ _ := get?_after_eq_some_iff
  free _ := get?_after_eq_none_iff
  own _ _ := name_of_get?
  names := by
    refine ⟨nodup_names _, fun n => ?_⟩
    rw [mem_names_iff, contains_eq_isSome, Option.isSome_iff_exists]
  modules := by
    refine ⟨List.Nodup.of_map Module.name ?_, fun m => mem_modules_iff_exists⟩
    rw [map_name_modules]
    exact nodup_names _
  size := by
    refine ⟨size_after, length_names _, ?_⟩
    rw [← length_names, ← map_name_modules, List.length_map]
  contains n := by rw [contains_eq_isSome, Option.isSome_iff_exists]
  isEmpty := isEmpty_iff

private theorem receives_of_error (r : Registry) {e : BuildError}
    (h : Module.parse source = .error e) : r.Receives source where
  fails e' := by
    rw [call_of_error r h, ← Module.parse_eq_error_iff_not_exports, h]
    simp
  unchanged e' _ := by
    rw [call_of_error r h]
    exact ⟨rfl, rfl⟩
  named n := by
    rw [call_of_error r h, Module.nameOf?_of_error h]
    simp
  fresh n hok _ := by
    rw [call_of_error r h] at hok
    cases hok
  taken n m hok _ := by
    rw [call_of_error r h] at hok
    cases hok

private theorem receives_of_ok (r : Registry) (h : Module.parse source = .ok m) :
    r.Receives source where
  fails e := by
    rw [call_of_ok r h, ← Module.parse_eq_error_iff_not_exports, h]
    simp
  unchanged e herror := by
    rw [call_of_ok r h] at herror
    cases herror
  named n := by
    rw [call_of_ok r h, Module.nameOf?_of_parse h]
    simp
  fresh n hok hfree := by
    rw [call_of_ok r h] at hok ⊢
    obtain rfl := Except.ok.inj hok
    simp [Registration.logLine, contains_eq_isSome, hfree]
  taken n d hok hheld := by
    rw [call_of_ok r h] at hok ⊢
    obtain rfl := Except.ok.inj hok
    simp [Registration.logLine, contains_eq_isSome, hheld]

theorem receives_call (r : Registry) (source : String) : r.Receives source := by
  cases h : Module.parse source with
  | error e => exact receives_of_error r h
  | ok m => exact receives_of_ok r h

/-- Registries that hold the modules of the same latest texts are the same. -/
theorem after_eq_of_latest {more : List String}
    (same : ∀ n source, Latest sources n source ↔ Latest more n source) :
    empty.after sources = empty.after more := by
  refine ext_get? fun n => Option.ext fun m => ?_
  rw [get?_after_eq_some_iff, get?_after_eq_some_iff]
  simp only [same]

theorem exists_registerAll_of_ofSources (h : ofSources sources = .ok r) :
    ∃ done, empty.registerAll sources = .ok (r, done) ∧
      done.map Registration.logLine = empty.logAfter sources := by
  rw [ofSources] at h
  rcases hall : empty.registerAll sources with e | ⟨r', done⟩
  · rw [hall] at h
    cases h
  · rw [hall] at h
    cases h
    exact ⟨done, rfl, (registerAll_eq_after hall).2⟩

theorem eq_after_of_ofSources (h : ofSources sources = .ok r) : r = empty.after sources := by
  obtain ⟨done, hall, -⟩ := exists_registerAll_of_ofSources h
  exact (registerAll_eq_after hall).1

theorem after_of_ofSources {calls : List String} (h : ofSources sources = .ok r) :
    r.after calls = empty.after (sources ++ calls) := by
  rw [after_append, ← eq_after_of_ofSources h]

/-- What a registry holds after calls was read from a text. -/
theorem wellFormed_of_get?_after {calls : List String} (h : ofSources sources = .ok r)
    (held : (r.after calls).get? n = some m) : m.WellFormed := by
  rw [after_of_ofSources h, get?_after_eq_some_iff] at held
  obtain ⟨source, -, parsed⟩ := held
  exact Module.wellFormed_of_parse parsed

/-- **A registry holds the latest of what was registered.** A library is refused exactly for its first
text that exports nothing, and is otherwise registered by one call after another, starting from
nothing. After any further calls, failing or not, the registry holds the modules of the latest texts,
as many as lines were logged of free names, and receives the next text accordingly. Two histories with
the same latest texts link and generate alike. -/
theorem registry_holds_latest (library calls : List String) :
    (∀ e, ofSources library = .error e ↔
      ∃ front source back, library = front ++ source :: back ∧ (∀ s ∈ front, Module.Exports s) ∧
        ¬ Module.Exports source ∧ e = .missingExport source) ∧
    ∀ r, ofSources library = .ok r →
      r = empty.after library ∧
      (∃ done, empty.registerAll library = .ok (r, done) ∧
        done.map Registration.logLine = empty.logAfter library) ∧
      (r.after calls).HoldsLatest (library ++ calls) ∧
      (r.after calls).size = (empty.logAfter library ++ r.logAfter calls).countP reportsNew ∧
      (∀ source, (r.after calls).Receives source) ∧
      ∀ library' calls' r', ofSources library' = .ok r' →
        (∀ n source, Latest (library ++ calls) n source ↔ Latest (library' ++ calls') n source) →
        ∀ entry, (r.after calls).linkOrder entry = (r'.after calls').linkOrder entry ∧
          ∀ precision, (r.after calls).generate entry precision =
            (r'.after calls').generate entry precision := by
  refine ⟨fun e => ofSources_eq_error_iff, fun r h => ?_⟩
  have hr := eq_after_of_ofSources h
  refine ⟨hr, exists_registerAll_of_ofSources h, ?_, ?_, receives_call _, ?_⟩
  · rw [after_of_ofSources h]
    exact holdsLatest_after _
  · rw [after_of_ofSources h, size_after_eq_countP, logAfter_append, ← hr]
  · intro library' calls' r' h' same entry
    rw [after_of_ofSources h, after_of_ofSources h', after_eq_of_latest same]
    exact ⟨rfl, fun _ => rfl⟩

end ShaderLink.Registry
