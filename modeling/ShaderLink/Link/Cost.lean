import ShaderLink.Module

/-!
# The cost of following imports

To follow a module's imports takes one move for each import and one more for the module itself.
Both ways of linking end because what they can still come to costs less with every move.
-/

set_option autoImplicit false

namespace ShaderLink.Link

/-- The moves that a module takes: one for each import, and one to be placed. -/
def moduleCost (m : Module) : Nat :=
  m.imports.length + 1

/-- The moves that these modules take together. -/
def totalCost (l : List Module) : Nat :=
  l.foldr (fun m n => moduleCost m + n) 0

@[simp] theorem totalCost_nil : totalCost [] = 0 := rfl

@[simp] theorem totalCost_cons (m : Module) (l : List Module) :
    totalCost (m :: l) = moduleCost m + totalCost l := rfl

/-- Fewer modules cost no more. -/
theorem totalCost_filter_le {p q : Module → Bool} (h : ∀ m, p m = true → q m = true)
    (l : List Module) : totalCost (l.filter p) ≤ totalCost (l.filter q) := by
  induction l with
  | nil => simp
  | cons m l ih =>
    cases hp : p m with
    | true => simp [hp, h m hp]; exact ih
    | false =>
      cases hq : q m with
      | true => simp [hp, hq]; omega
      | false => simp [hp, hq]; exact ih

/-- One module less costs less by the cost of that module. -/
theorem totalCost_filter_add_le {p q : Module → Bool} (h : ∀ m, p m = true → q m = true)
    {l : List Module} {m : Module} (hm : m ∈ l) (hp : p m = false) (hq : q m = true) :
    totalCost (l.filter p) + moduleCost m ≤ totalCost (l.filter q) := by
  induction l with
  | nil => cases hm
  | cons d l ih =>
    rcases List.mem_cons.1 hm with rfl | hm
    · have := totalCost_filter_le h l
      simp [hp, hq]
      omega
    · have := ih hm
      cases hpd : p d with
      | true => simp [hpd, h d hpd]; omega
      | false => cases hqd : q d <;> simp [hpd, hqd] <;> omega

end ShaderLink.Link
