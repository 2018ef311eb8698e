import ShaderLink.Proofs.Link.Composition

/-!
# Redundant imports

An import is redundant behind another one that leads to it. When linking comes to it, all that the
earlier import leads to is placed, so that it is passed; or linking has failed before. It does not
matter on which way the earlier import leads there, be it through the importer itself or through names
that are not registered: on such ways linking fails, and it does so at the earlier import.

`Thinned` says of two lists of imports that the one is the other less redundant imports. Registries
may differ in that under every name that the entry point reaches.

**The law** (`linkOrder_without_redundant`): to leave out a redundant import changes neither the names
of any link order nor any error. It is the case of one import of `names_linkOrder_of_thinned`.

The proof is about `Link.visit`. What is placed is always settled (`Settled`), which a visit keeps
(`grown_visit`); two visits from the same names placed then come to the same names, or to the same
error (`sameNames_visit`). Both follow the recursion of `visit`.

**What it does not establish.** An import that is redundant only because of a later one cannot be left
out: the order would change.
-/

set_option autoImplicit false

namespace ShaderLink.Link

variable {r s : Registry} {entry parent : String} {path : List String} {done : List Module}

/-! ## What is placed -/

/-- **Modules as linking places them**: registered, and each behind all that it imports. -/
structure Settled (r : Registry) (done : List Module) : Prop where
  held : ∀ d ∈ done, r.get? d.name = some d
  before : ImportsBefore done

theorem settled_nil : Settled r [] := ⟨by simp, importsBefore_nil⟩

theorem Settled.place (h : Settled r done) {m : Module} (hm : r.get? m.name = some m)
    (imports : ∀ n ∈ m.imports, n ∈ done.map Module.name) : Settled r (done ++ [m]) where
  held d hd := by
    rcases List.mem_append.1 hd with hd | hd
    · exact h.held d hd
    · rw [List.mem_singleton.1 hd]
      exact hm
  before := h.before.concat imports

/-- What is placed under a name is registered under it. -/
theorem Settled.exists_get? (h : Settled r done) {n : String} (hn : n ∈ done.map Module.name) :
    ∃ d, r.get? n = some d := by
  obtain ⟨d, hd, rfl⟩ := List.mem_map.1 hn
  exact ⟨d, h.held d hd⟩

/-- **What visits of these names make of `done`**: they are placed, and so is all that was. -/
structure Grown (r : Registry) (names : List String) (done done' : List Module) : Prop where
  settled : Settled r done'
  kept : done.map Module.name ⊆ done'.map Module.name
  placed : ∀ n ∈ names, n ∈ done'.map Module.name

/-- Imports are placed one after the other. -/
private theorem grown_visitAll {imports : List String}
    (visits : ∀ n ∈ imports, ∀ done done', Settled r done →
      visit r n (some parent) path done = .ok done' → Grown r [n] done done')
    {done done' : List Module} (settled : Settled r done)
    (h : visitAll r imports parent path done = .ok done') : Grown r imports done done' := by
  induction imports generalizing done with
  | nil =>
    rw [visitAll_nil] at h
    cases h
    exact ⟨settled, List.Subset.refl _, by simp⟩
  | cons n imports ih =>
    rw [visitAll_cons] at h
    cases first : visit r n (some parent) path done with
    | error e =>
      rw [first] at h
      cases h
    | ok middle =>
      rw [first] at h
      have one := visits n List.mem_cons_self done middle settled first
      have rest := ih (fun k hk => visits k (List.mem_cons_of_mem _ hk)) one.settled h
      refine ⟨rest.settled, List.Subset.trans one.kept rest.kept,
        List.forall_mem_cons.2 ⟨?_, rest.placed⟩⟩
      exact rest.kept (one.placed n List.mem_cons_self)

/-- **A visit keeps what is placed settled**, and places what it visits. -/
theorem grown_visit {name : String} {requestedBy : Option String} {path : List String}
    {done done' : List Module} (settled : Settled r done)
    (h : visit r name requestedBy path done = .ok done') : Grown r [name] done done' := by
  cases hm : r.get? name with
  | none =>
    rw [visit_missing hm] at h
    cases h
  | some m =>
    obtain rfl := Registry.name_of_get? hm
    by_cases placed : m.name ∈ done.map Module.name
    · rw [visit_placed hm placed] at h
      cases h
      exact ⟨settled, List.Subset.refl _, List.forall_mem_singleton.2 placed⟩
    by_cases following : m.name ∈ path
    · rw [visit_cycle hm placed following] at h
      cases h
    rw [visit_new hm placed following] at h
    cases imports : visitAll r m.imports m.name (m.name :: path) done with
    | error e =>
      rw [imports] at h
      cases h
    | ok middle =>
      rw [imports] at h
      obtain rfl : middle ++ [m] = done' := Except.ok.inj h
      have grown := grown_visitAll (fun n _ done done' settled h => grown_visit settled h) settled imports
      refine ⟨grown.settled.place hm grown.placed, ?_, by simp⟩
      rw [List.map_append]
      exact List.Subset.trans grown.kept (List.subset_append_left _ _)
termination_by totalCost (offPath r path)
decreasing_by
  have := totalCost_offPath_lt hm following
  omega

/-! ## Lists with redundant imports left out -/

/-- **`few` is `all` less redundant imports**: each that is left out is reached from an import in front
of it, where those of `seen` are in front of all. -/
inductive Thinned (r : Registry) : List String → List String → List String → Prop
  | nil {seen : List String} : Thinned r seen [] []
  | keep {seen all few : List String} (n : String) (h : Thinned r (n :: seen) all few) :
      Thinned r seen (n :: all) (n :: few)
  | leave {seen all few : List String} {n k : String} (front : k ∈ seen) (behind : r.Reaches k n)
      (h : Thinned r (n :: seen) all few) : Thinned r seen (n :: all) few

theorem Thinned.refl (seen l : List String) : Thinned r seen l l := by
  induction l generalizing seen with
  | nil => exact .nil
  | cons n l ih => exact .keep n (ih (n :: seen))

/-- One redundant import is left out. -/
theorem thinned_of_reaches {x y : String} (behind : r.Reaches x y) (front middle back : List String) :
    Thinned r [] (front ++ x :: middle ++ y :: back) (front ++ x :: middle ++ back) := by
  have leave : ∀ seen, x ∈ seen → Thinned r seen (middle ++ y :: back) (middle ++ back) := by
    induction middle with
    | nil => exact fun seen hx => .leave hx behind (.refl _ back)
    | cons n middle ih => exact fun seen hx => .keep n (ih (n :: seen) (List.mem_cons_of_mem _ hx))
  have all : ∀ seen, Thinned r seen (front ++ x :: middle ++ y :: back)
      (front ++ x :: middle ++ back) := by
    induction front with
    | nil => exact fun seen => .keep x (leave (x :: seen) List.mem_cons_self)
    | cons n front ih => exact fun seen => .keep n (ih (n :: seen))
  exact all []

/-! ## Two registries -/

/-- Two links come to the same names, or fail with the same error. -/
def SameNames (a b : Except BuildError (List Module)) : Prop :=
  b.map (List.map Module.name) = a.map (List.map Module.name)

theorem sameNames_ok {done done' : List Module}
    (same : done'.map Module.name = done.map Module.name) : SameNames (.ok done) (.ok done') :=
  congrArg Except.ok same

/-- What goes on alike from the same names goes on alike from links to the same names. -/
theorem SameNames.bind {a b : Except BuildError (List Module)}
    {f g : List Module → Except BuildError (List Module)} (h : SameNames a b)
    (next : ∀ done done', a = .ok done → done'.map Module.name = done.map Module.name →
      SameNames (f done) (g done')) : SameNames (a.bind f) (b.bind g) := by
  cases a with
  | error e =>
    cases b with
    | error e' => exact h
    | ok done' => cases h
  | ok done =>
    cases b with
    | error e' => cases h
    | ok done' => exact next done done' rfl (Except.ok.inj h)

/-- Imports visited from the same names come to the same names, the redundant ones left out or not. -/
private theorem sameNames_visitAll {seen all few : List String} (thinned : Thinned r seen all few)
    (visits : ∀ n ∈ all, ∀ done done', Settled r done →
      done'.map Module.name = done.map Module.name →
        SameNames (visit r n (some parent) path done) (visit s n (some parent) path done'))
    {done done' : List Module} (settled : Settled r done)
    (placed : ∀ k ∈ seen, k ∈ done.map Module.name)
    (same : done'.map Module.name = done.map Module.name) :
    SameNames (visitAll r all parent path done) (visitAll s few parent path done') := by
  induction thinned generalizing done done' with
  | nil =>
    rw [visitAll_nil, visitAll_nil]
    exact sameNames_ok same
  | @keep seen all few n _ ih =>
    rw [visitAll_cons, visitAll_cons]
    refine (visits n List.mem_cons_self done done' settled same).bind fun more more' h same => ?_
    have grown := grown_visit settled h
    refine ih (fun k hk => visits k (List.mem_cons_of_mem _ hk)) grown.settled ?_ same
    exact List.forall_mem_cons.2
      ⟨grown.placed n List.mem_cons_self, fun k hk => grown.kept (placed k hk)⟩
  | @leave seen all few n k front behind _ ih =>
    -- the import in front is placed, hence all that it leads to
    have hn := settled.before.mem_names settled.held (placed k front) behind
    obtain ⟨d, hd⟩ := settled.exists_get? hn
    rw [visitAll_cons, visit_placed hd hn]
    exact ih (fun k hk => visits k (List.mem_cons_of_mem _ hk)) settled
      (List.forall_mem_cons.2 ⟨hn, placed⟩) same

/-- Under each name that the entry point reaches, two registries hold modules with the same imports
less redundant ones, or none. -/
def ThinnedFrom (r s : Registry) (entry : String) : Prop :=
  ∀ n, r.Reaches entry n →
    Option.Rel (fun d d' => Thinned r [] d.imports d'.imports) (r.get? n) (s.get? n)

/-- **Visits come to the same names**, or fail with the same error, whether redundant imports are left
out or not. -/
theorem sameNames_visit (thinned : ThinnedFrom r s entry) {name : String}
    {requestedBy : Option String} {path : List String} {done done' : List Module}
    (reached : r.Reaches entry name) (settled : Settled r done)
    (same : done'.map Module.name = done.map Module.name) :
    SameNames (visit r name requestedBy path done) (visit s name requestedBy path done') := by
  have held := thinned name reached
  generalize hm : r.get? name = here at held
  generalize hm' : s.get? name = there at held
  cases held with
  | none => rw [visit_missing hm, visit_missing hm', SameNames]
  | @some m m' imports =>
    by_cases placed : name ∈ done.map Module.name
    · rw [visit_placed hm placed, visit_placed hm' (same ▸ placed)]
      exact sameNames_ok same
    have placed' : name ∉ done'.map Module.name := same ▸ placed
    by_cases following : name ∈ path
    · rw [visit_cycle hm placed following, visit_cycle hm' placed' following, SameNames]
    rw [visit_new hm placed following, visit_new hm' placed' following]
    have visits : ∀ n ∈ m.imports, ∀ done done', Settled r done →
        done'.map Module.name = done.map Module.name →
          SameNames (visit r n (some name) (name :: path) done)
            (visit s n (some name) (name :: path) done') := fun n hn done done' settled same =>
      sameNames_visit thinned (reached.tail ⟨m, hm, hn⟩) settled same
    refine SameNames.bind (f := fun done => .ok (done ++ [m])) (g := fun done => .ok (done ++ [m']))
      (sameNames_visitAll imports visits settled (by simp) same) fun more more' _ same => ?_
    refine sameNames_ok ?_
    simp [same, Registry.name_of_get? hm, Registry.name_of_get? hm']
termination_by totalCost (offPath r path)
decreasing_by
  have := totalCost_offPath_lt hm following
  omega

end ShaderLink.Link

namespace ShaderLink.Registry

open ShaderLink.Link

variable {r s : Registry} {entry : String}

/-- **Redundant imports are harmless**: registries that differ in them alone, under all that the entry
point reaches, link it to the same names or fail with the same error. -/
theorem names_linkOrder_of_thinned (thinned : ThinnedFrom r s entry) :
    (s.linkOrder entry).map (List.map Module.name) =
      (r.linkOrder entry).map (List.map Module.name) := by
  have visits : ∀ q : Registry, q.linkOrder entry = visit q entry none [] [] := by
    intro q
    cases hm : q.get? entry with
    | none => simp only [linkOrder, hm, visit_missing hm]
    | some m =>
      obtain rfl := name_of_get? hm
      rw [linkOrder_eq_visitAll hm, visit_new hm (by simp) (by simp)]
  rw [visits, visits]
  exact sameNames_visit thinned .refl settled_nil rfl

/-- **A redundant import can be left out.** Where a module imports `y` behind an import `x` that is
`y` or leads to it, the registry with that module but for the import `y` in this place, and with all
others, links every entry point to the same names in the same order, or fails with the same error. -/
theorem linkOrder_without_redundant {name : String} {m : Module} (hm : r.get? name = some m)
    (front middle back : List String) {x y : String}
    (listed : m.imports = front ++ x :: middle ++ y :: back) (behind : r.Reaches x y)
    (entry : String) :
    let m' := { m with imports := front ++ x :: middle ++ back }
    (∀ n, (r.insert m').get? n = if name = n then some m' else r.get? n) ∧
      ((r.insert m').linkOrder entry).map (List.map Module.name) =
        (r.linkOrder entry).map (List.map Module.name) := by
  obtain rfl := name_of_get? hm
  intro m'
  refine ⟨get?_insert r m', names_linkOrder_of_thinned fun n _ => ?_⟩
  rw [get?_insert]
  by_cases hn : m.name = n
  · subst hn
    rw [hm, if_pos rfl]
    exact .some (listed ▸ thinned_of_reaches behind front middle back)
  · rw [if_neg hn]
    cases r.get? n with
    | none => exact .none
    | some d => exact .some (.refl [] d.imports)

/-- A module that imports another one again that is imported already, and a knot: one of its two
modules imports what the other leads to only through the first, and that is not registered. -/
def tangle : Registry :=
  [outline "top" ["left", "bottom"], outline "left" ["bottom"], outline "bottom" [],
    outline "here" ["there", "ghost"], outline "there" ["here"]].foldl insert empty

/-- Of the two imports that can be left out the one changes no order, the other no error. -/
theorem linkOrder_tangle :
    let top := { outline "top" ["left", "bottom"] with imports := ["left"] }
    let here := { outline "here" ["there", "ghost"] with imports := ["there"] }
    tangle.get? "top" = some (outline "top" ["left", "bottom"]) ∧ tangle.Reaches "left" "bottom" ∧
      tangle.get? "here" = some (outline "here" ["there", "ghost"]) ∧
      tangle.Reaches "there" "ghost" ∧
      ((tangle.insert top).linkOrder "top").map (List.map Module.name) =
        .ok ["bottom", "left", "top"] ∧
      ((tangle.insert here).linkOrder "there").map (List.map Module.name) =
        .error (.circularDependency "there") := by
  intro top here
  have top_held : tangle.get? "top" = some (outline "top" ["left", "bottom"]) := by decide +kernel
  have here_held : tangle.get? "here" = some (outline "here" ["there", "ghost"]) := by
    decide +kernel
  have left_bottom : tangle.Reaches "left" "bottom" :=
    .single ⟨outline "left" ["bottom"], by decide +kernel, by decide⟩
  have there_ghost : tangle.Reaches "there" "ghost" :=
    .tail (.single ⟨outline "there" ["here"], by decide +kernel, by decide⟩)
      ⟨_, here_held, by decide⟩
  have top_same := (linkOrder_without_redundant top_held [] [] [] rfl left_bottom "top").2
  have here_same := (linkOrder_without_redundant here_held [] [] [] rfl there_ghost "there").2
  refine ⟨top_held, left_bottom, here_held, there_ghost, top_same.trans ?_, here_same.trans ?_⟩
  · decide +kernel
  · decide +kernel

end ShaderLink.Registry
