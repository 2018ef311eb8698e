import Mathlib.Data.List.Perm.Subperm
import Mathlib.Tactic.Choose
import ShaderLink.Proofs.Link.Order
import ShaderLink.Proofs.Link.Recursion
import ShaderLink.Proofs.Lists

/-!
# Orders made of orders

Linking an entry point walks on from import to import, and what the imports before have placed is not
placed again. Yet each import can be linked for itself, from nothing, and the order of the entry point
is made of the orders of its imports: one behind the other, each module only where it stands first,
and the entry point behind them all.

**The law** (`linkOrder_is_compositional`): an entry point links to an order exactly when its imports
link to orders that do not hold it and these make up the order. So what an import adds to the order
is what it links to for itself, less what the imports declared before it link to.

The proof is about `Link.visit`: with a closed list placed already (`Closed`), visiting a name adds
the order that the name has for itself (`Adds`). This goes by induction on the length of that order
(`adds_of_linkOrder`), for the order of an import is shorter than that of its importer.

**What it does not establish.** Where an import does not link, neither does the entry point; but its
error need not be that of the import, which may come to a cycle at another module.
-/

set_option autoImplicit false

namespace ShaderLink.Link

/-! ## What a visit adds -/

variable {r : Registry} {done own : List Module} {name entry : String} {m : Module}

/-- **A closed list**: registered modules, each once, with all that they import. -/
structure Closed (r : Registry) (done : List Module) : Prop where
  held : ∀ d ∈ done, r.get? d.name = some d
  nodup : done.Nodup
  imports : ∀ d ∈ done, ∀ n ∈ d.imports, n ∈ done.map Module.name

theorem closed_nil : Closed r [] := ⟨by simp, List.nodup_nil, by simp⟩

theorem closed_of_isLinkOrder (h : r.IsLinkOrder entry own) : Closed r own where
  held := h.held
  nodup := h.nodup.of_map
  imports d hd n hn := by
    have reached : r.Reaches entry d.name := ((h.mem_iff d).1 hd).2
    exact h.mem_names (reached.tail (Registry.imports_of_mem (h.held d hd) hn))

theorem Closed.add (h : Closed r done) (h' : Closed r own) : Closed r (done ++ own).eraseDups where
  held d hd := by
    rw [List.mem_eraseDups, List.mem_append] at hd
    exact hd.elim (h.held d) (h'.held d)
  nodup := nodup_eraseDups _
  imports d hd n hn := by
    have names : ∀ k, k ∈ done.map Module.name ∨ k ∈ own.map Module.name →
        k ∈ (done ++ own).eraseDups.map Module.name := by
      intro k hk
      simpa only [List.mem_map, List.mem_eraseDups, List.mem_append, or_and_right, exists_or] using hk
    rw [List.mem_eraseDups, List.mem_append] at hd
    exact names n (hd.imp (h.imports d · n hn) (h'.imports d · n hn))

/-- A closed list holds all that its members reach. -/
theorem Closed.mem_names (h : Closed r done) {a b : String} (ha : a ∈ done.map Module.name)
    (hab : r.Reaches a b) : b ∈ done.map Module.name := by
  induction hab with
  | refl => exact ha
  | tail _ hstep ih =>
    obtain ⟨d, hd, rfl⟩ := List.mem_map.1 ih
    exact h.imports d hd _ ((Registry.imports_iff (h.held d hd)).1 hstep)

/-- An order stands in every closed list in which its entry point stands. -/
theorem Closed.subset (h : Closed r done) (order : r.IsLinkOrder entry own)
    (placed : entry ∈ done.map Module.name) : own ⊆ done := by
  intro d hd
  obtain ⟨held, reached⟩ := (order.mem_iff d).1 hd
  obtain ⟨d', hd', same⟩ := List.mem_map.1 (h.mem_names placed reached)
  rwa [← Registry.eq_of_name_eq (h.held d' hd') held same]

/-- **To visit a name adds the modules of `own`**, a closed list, to every closed list that is placed,
as far as they are not placed yet. None of them may be on the path unless it is placed. -/
structure Adds (r : Registry) (name : String) (own : List Module) : Prop where
  closed : Closed r own
  visit_eq : ∀ (parent : Option String) (path : List String) (done : List Module), Closed r done →
    (∀ n ∈ path, n ∈ own.map Module.name → n ∈ done.map Module.name) →
    visit r name parent path done = .ok (done ++ own).eraseDups

variable {n parent : String} {imports path : List String} {orderOf : String → List Module}

/-- Imports add what they add one after the other. -/
theorem visitAll_eq_of_adds (adds : ∀ n ∈ imports, Adds r n (orderOf n)) (placed : Closed r done)
    (free : ∀ n ∈ imports, ∀ k ∈ path, k ∈ (orderOf n).map Module.name → k ∈ done.map Module.name) :
    visitAll r imports parent path done = .ok (done ++ imports.flatMap orderOf).eraseDups := by
  induction imports generalizing done with
  | nil => rw [visitAll_nil, List.flatMap_nil, List.append_nil, eraseDups_of_nodup placed.nodup]
  | cons n imports ih =>
    have first := adds n List.mem_cons_self
    have added := first.visit_eq (some parent) path done placed (free n List.mem_cons_self)
    have grown : ∀ k ∈ done.map Module.name, k ∈ (done ++ orderOf n).eraseDups.map Module.name := by
      intro k hk
      obtain ⟨d, hd, rfl⟩ := List.mem_map.1 hk
      exact List.mem_map_of_mem (List.mem_eraseDups.2 (List.mem_append_left _ hd))
    have rest := ih (fun k hk => adds k (List.mem_cons_of_mem _ hk)) (placed.add first.closed)
      fun k hk a ha held => grown a (free k (List.mem_cons_of_mem _ hk) a ha held)
    rw [visitAll_cons, added, Except.bind, rest, eraseDups_eraseDups_append, List.append_assoc,
      List.flatMap_cons]

/-! ## The orders of imports -/

theorem linkOrder_eq_visitAll (hm : r.get? m.name = some m) :
    r.linkOrder m.name = (visitAll r m.imports m.name [m.name] []).map (· ++ [m]) := by
  simp only [Registry.linkOrder, hm]
  rw [run_eq_left (Walk.sound_start hm)]
  change (visitAll r m.imports m.name [m.name] []).bind _ = _
  cases visitAll r m.imports m.name [m.name] [] <;> rfl

/-- What the imports of a module add makes up the order of the module. -/
theorem linkOrder_of_adds (hm : r.get? m.name = some m)
    (adds : ∀ n ∈ m.imports, Adds r n (orderOf n))
    (apart : ∀ n ∈ m.imports, m.name ∉ (orderOf n).map Module.name) :
    r.linkOrder m.name = .ok ((m.imports.flatMap orderOf).eraseDups ++ [m]) := by
  have free : ∀ n ∈ m.imports, ∀ k ∈ [m.name], k ∈ (orderOf n).map Module.name →
      k ∈ [].map Module.name := by
    intro n hn k hk held
    rw [List.mem_singleton.1 hk] at held
    exact absurd held (apart n hn)
  rw [linkOrder_eq_visitAll hm, visitAll_eq_of_adds adds closed_nil free]
  rfl

section Imports

variable (order : r.IsLinkOrder entry done) (himports : r.Imports entry n)
include order himports

/-- What an entry point that links imports does link, -/
theorem exists_linkOrder_of_imports : ∃ own, r.linkOrder n = .ok own := by
  rcases r.linkOrder_outcome n with ⟨own, h, -⟩ | ⟨e, -, cause⟩
  · exact ⟨own, h⟩
  · refine absurd cause (Registry.not_diagnosis (fun k hk => ?_) (fun k hk => ?_) e)
    · exact order.contains (.head himports hk)
    · exact order.not_onCycle (.head himports hk)

/-- to an order without the entry point, -/
theorem entry_notMem_names (order' : r.IsLinkOrder n own) : entry ∉ own.map Module.name := by
  intro held
  obtain ⟨d, hd, rfl⟩ := List.mem_map.1 held
  exact order.not_onCycle .refl (.head' himports ((order'.mem_iff d).1 hd).2)

/-- which is the shorter one. -/
theorem length_lt_of_imports (order' : r.IsLinkOrder n own) : own.length < done.length := by
  obtain ⟨m, hm, last⟩ := order.last
  have new : m ∉ own := fun h => entry_notMem_names order himports order'
    (List.mem_map.2 ⟨m, h, Registry.name_of_get? hm⟩)
  have sub : m :: own ⊆ done := by
    refine List.cons_subset.2 ⟨List.mem_of_getLast? last, fun d hd => ?_⟩
    obtain ⟨held, reached⟩ := (order'.mem_iff d).1 hd
    exact (order.mem_iff d).2 ⟨held, .head himports reached⟩
  exact (List.subperm_of_subset (List.nodup_cons.2 ⟨new, order'.nodup.of_map⟩) sub).length_le

end Imports

/-- **To visit a name adds the order that it links to for itself.** -/
theorem adds_of_linkOrder (h : r.linkOrder name = .ok own) : Adds r name own := by
  induction hlen : own.length using Nat.strongRecOn generalizing name own with
  | _ length ih =>
    have order := Registry.isLinkOrder_of_linkOrder h
    obtain ⟨m, hm, -⟩ := order.last
    obtain rfl := Registry.name_of_get? hm
    have himports : ∀ n ∈ m.imports, r.Imports m.name n := fun n hn => ⟨m, hm, hn⟩
    choose! orderOf links using fun n hn => exists_linkOrder_of_imports order (himports n hn)
    have order' : ∀ n ∈ m.imports, r.IsLinkOrder n (orderOf n) := fun n hn =>
      Registry.isLinkOrder_of_linkOrder (links n hn)
    have adds : ∀ n ∈ m.imports, Adds r n (orderOf n) := by
      intro n hn
      have shorter := length_lt_of_imports order (himports n hn) (order' n hn)
      exact ih _ (hlen ▸ shorter) (links n hn) rfl
    have apart : ∀ n ∈ m.imports, m.name ∉ (orderOf n).map Module.name := fun n hn =>
      entry_notMem_names order (himports n hn) (order' n hn)
    -- The order is made of those of the imports, which a visit adds one after the other.
    have made : own = (m.imports.flatMap orderOf).eraseDups ++ [m] := by
      rw [linkOrder_of_adds hm adds apart] at h
      exact (Except.ok.inj h).symm
    refine ⟨closed_of_isLinkOrder order, fun parent path done placed free => ?_⟩
    by_cases hplaced : m.name ∈ done.map Module.name
    · rw [visit_placed hm hplaced, List.eraseDups_append,
        removeAll_eq_nil (placed.subset order hplaced), List.eraseDups_nil, List.append_nil,
        eraseDups_of_nodup placed.nodup]
    have off : m.name ∉ path := fun hpath => hplaced (free _ hpath (order.mem_names .refl))
    have free' : ∀ n ∈ m.imports, ∀ k ∈ m.name :: path, k ∈ (orderOf n).map Module.name →
        k ∈ done.map Module.name := by
      intro n hn k hk held
      rcases List.mem_cons.1 hk with rfl | hk
      · exact absurd held (apart n hn)
      · obtain ⟨d, hd, rfl⟩ := List.mem_map.1 held
        refine free _ hk (List.mem_map_of_mem ?_)
        rw [made, List.mem_append, List.mem_eraseDups]
        exact .inl (List.mem_flatMap_of_mem hn hd)
    have new : m ∉ done ++ (m.imports.flatMap orderOf).eraseDups := by
      rw [List.mem_append, List.mem_eraseDups, List.mem_flatMap]
      rintro (hd | ⟨n, hn, hd⟩)
      · exact hplaced (List.mem_map_of_mem hd)
      · exact apart n hn (List.mem_map_of_mem hd)
    rw [visit_new hm hplaced off, visitAll_eq_of_adds adds placed free', Except.map, made,
      ← List.append_assoc, eraseDups_concat_of_notMem new, eraseDups_append_eraseDups]

/-- **What one of several orders adds**: itself, less what the orders before it hold. -/
theorem exists_eraseDups_flatMap (front back : List String) (nodup : (orderOf n).Nodup) :
    ∃ rest, ((front ++ n :: back).flatMap orderOf).eraseDups =
      (front.flatMap orderOf).eraseDups ++ (orderOf n).removeAll (front.flatMap orderOf) ++ rest := by
  have once : ((orderOf n).removeAll (front.flatMap orderOf)).eraseDups =
      (orderOf n).removeAll (front.flatMap orderOf) := eraseDups_of_nodup (nodup.filter _)
  rw [List.flatMap_append, List.flatMap_cons, ← List.append_assoc, List.eraseDups_append,
    List.eraseDups_append, once]
  exact ⟨_, rfl⟩

end ShaderLink.Link

namespace ShaderLink.Registry

open ShaderLink.Link

/-- **Linking is compositional.** A registered entry point links exactly when all of its imports link
to orders that do not hold it. Its order is then made of theirs: one behind the other, every repeated
module left out but for the first time, and the entry point's module at the end. So what an import
adds is the order that it has for itself, less what the imports declared before it hold; those declared
behind it have no say in that. -/
theorem linkOrder_is_compositional (r : Registry) {entry : String} {m : Module}
    (hm : r.get? entry = some m) :
    ((∃ order, r.linkOrder entry = .ok order) ↔
      ∀ n ∈ m.imports, ∃ own, r.linkOrder n = .ok own ∧ entry ∉ own.map Module.name) ∧
    ∀ order, r.linkOrder entry = .ok order →
      ∃ orderOf : String → List Module, (∀ n ∈ m.imports, r.linkOrder n = .ok (orderOf n)) ∧
        order = (m.imports.flatMap orderOf).eraseDups ++ [m] ∧
        ∀ front n back, m.imports = front ++ n :: back → ∃ rest, order =
          (front.flatMap orderOf).eraseDups ++ (orderOf n).removeAll (front.flatMap orderOf) ++ rest
    := by
  obtain rfl := name_of_get? hm
  -- What the imports link to adds up, once they all link without their importer.
  have made : ∀ orderOf : String → List Module,
      (∀ n ∈ m.imports, r.linkOrder n = .ok (orderOf n) ∧ m.name ∉ (orderOf n).map Module.name) →
        r.linkOrder m.name = .ok ((m.imports.flatMap orderOf).eraseDups ++ [m]) := fun _ each =>
    linkOrder_of_adds hm (fun n hn => adds_of_linkOrder (each n hn).1) fun n hn => (each n hn).2
  have parts : ∀ order, r.linkOrder m.name = .ok order → ∀ n ∈ m.imports,
      ∃ own, r.linkOrder n = .ok own ∧ m.name ∉ own.map Module.name := by
    intro order h n hn
    have order := isLinkOrder_of_linkOrder h
    obtain ⟨own, links⟩ := exists_linkOrder_of_imports order ⟨m, hm, hn⟩
    exact ⟨own, links, entry_notMem_names order ⟨m, hm, hn⟩ (isLinkOrder_of_linkOrder links)⟩
  refine ⟨⟨fun ⟨order, h⟩ => parts order h, fun each => ?_⟩, fun order h => ?_⟩
  · choose! orderOf each using each
    exact ⟨_, made orderOf each⟩
  · choose! orderOf each using parts order h
    have order_eq : order = (m.imports.flatMap orderOf).eraseDups ++ [m] := by
      rw [made orderOf each] at h
      exact (Except.ok.inj h).symm
    refine ⟨orderOf, fun n hn => (each n hn).1, order_eq, fun front n back split => ?_⟩
    have hn : n ∈ m.imports := by simp [split]
    obtain ⟨rest, parted⟩ := exists_eraseDups_flatMap front back
      (isLinkOrder_of_linkOrder (each n hn).1).nodup.of_map
    rw [order_eq, split, parted, List.append_assoc]
    exact ⟨_, rfl⟩

/-- A module that is only a name and imports. -/
def outline (name : String) (imports : List String) : Module := ⟨name, "float", "", imports⟩

/-- Two modules that import a third, and one that imports both. -/
def diamond : Registry :=
  [outline "top" ["left", "right"], outline "left" ["bottom"], outline "right" ["bottom"],
    outline "bottom" []].foldl insert empty

/-- The module that both imports share is placed with the first of them. -/
theorem linkOrder_diamond :
    diamond.get? "top" = some (outline "top" ["left", "right"]) ∧
      diamond.linkOrder "left" = .ok [outline "bottom" [], outline "left" ["bottom"]] ∧
      diamond.linkOrder "right" = .ok [outline "bottom" [], outline "right" ["bottom"]] ∧
      diamond.linkOrder "top" = .ok ([outline "bottom" [], outline "left" ["bottom"],
        outline "right" ["bottom"]] ++ [outline "top" ["left", "right"]]) := by
  have held : diamond.get? "top" = some (outline "top" ["left", "right"]) := by decide +kernel
  have left : diamond.linkOrder "left" = .ok [outline "bottom" [], outline "left" ["bottom"]] := by
    decide +kernel
  have right : diamond.linkOrder "right" = .ok [outline "bottom" [], outline "right" ["bottom"]] := by
    decide +kernel
  obtain ⟨links, made⟩ := linkOrder_is_compositional diamond held
  have each : ∀ n ∈ ["left", "right"], ∃ own, diamond.linkOrder n = .ok own ∧
      "top" ∉ own.map Module.name := by
    intro n hn
    simp only [List.mem_cons, List.not_mem_nil, or_false] at hn
    rcases hn with rfl | rfl
    · exact ⟨_, left, by decide⟩
    · exact ⟨_, right, by decide⟩
  obtain ⟨order, h⟩ := links.2 each
  obtain ⟨orderOf, orders, rfl, -⟩ := made order h
  have left' : orderOf "left" = _ := Except.ok.inj ((orders "left" (by decide)).symm.trans left)
  have right' : orderOf "right" = _ := Except.ok.inj ((orders "right" (by decide)).symm.trans right)
  refine ⟨held, left, right, h.trans ?_⟩
  simp only [outline, List.flatMap_cons, List.flatMap_nil, left', right']
  decide

end ShaderLink.Registry
