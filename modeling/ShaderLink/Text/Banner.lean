/-!
# Banners

A banner is a comment line that frames a name with dashes: it heads each section of a program and
encloses a text in a report. Widths count bytes of UTF-8.

**The laws** (`framed_banner`, `utf8ByteSize_banner`): the dashes fill what the name leaves of the
width, the larger half on the left; and a banner is six bytes longer than the wider of its width and
its name, so banners of one width whose names fit are equally long.
-/

set_option autoImplicit false

namespace ShaderLink.Text

/-- A run of `n` dashes. -/
def dashes (n : Nat) : String :=
  String.ofList (List.replicate n '-')

/-- `name` between dashes in a comment. Both sides have half of what `name` leaves of `width`; a dash
that is left over stands in front of the space on the left. A name wider than `width` has none. -/
def banner (name : String) (width : Nat) : String :=
  let padding := width - name.utf8ByteSize
  let spacing := dashes (padding / 2)
  let separator := if padding % 2 = 0 then " " else "- "
  "/*" ++ spacing ++ separator ++ name ++ " " ++ spacing ++ "*/"

/-- The width for banners over things of these sizes: four more than the largest, counted as at
least twenty. -/
def bannerWidth (sizes : List Nat) : Nat :=
  sizes.foldl max 20 + 4

/-! ## One banner -/

@[simp] theorem utf8ByteSize_dashes (n : Nat) : (dashes n).utf8ByteSize = n := by
  unfold dashes
  induction n with
  | zero => rfl
  | succ n ih =>
    rw [List.replicate_succ, ← List.singleton_append, String.ofList_append,
      String.utf8ByteSize_append, ih, Nat.add_comm]
    rfl

/-- **A banner as it is drawn**: the name between spaces, and dashes on both sides. -/
def Framed (left : Nat) (name : String) (right : Nat) (banner : String) : Prop :=
  banner.toList = "/*".toList ++ List.replicate left '-' ++
    ' ' :: (name.toList ++ ' ' :: (List.replicate right '-' ++ "*/".toList))

theorem Framed.eq {left right : Nat} {name banner : String} (h : Framed left name right banner) :
    banner = "/*" ++ dashes left ++ " " ++ name ++ " " ++ dashes right ++ "*/" :=
  String.toList_inj.1 (h.trans (by simp [dashes]))

/-- Dashes and name leave no choice. -/
theorem Framed.unique {left right : Nat} {name a b : String} (ha : Framed left name right a)
    (hb : Framed left name right b) : a = b :=
  ha.eq.trans hb.eq.symm

theorem Framed.utf8ByteSize_eq {left right : Nat} {name banner : String}
    (h : Framed left name right banner) :
    banner.utf8ByteSize = left + name.utf8ByteSize + right + 6 := by
  have h2 : ("/*" : String).utf8ByteSize = 2 := by decide
  have h2' : ("*/" : String).utf8ByteSize = 2 := by decide
  have h1 : (" " : String).utf8ByteSize = 1 := by decide
  simp only [h.eq, String.utf8ByteSize_append, utf8ByteSize_dashes, h1, h2, h2']
  omega

/-- Half of the dashes and the separator behind them are the larger half and a space. -/
private theorem toList_dashes_append_separator (n : Nat) :
    (dashes (n / 2) ++ if n % 2 = 0 then " " else "- ").toList =
      List.replicate ((n + 1) / 2) '-' ++ [' '] := by
  split
  · next even =>
    have half : (n + 1) / 2 = n / 2 := by omega
    simp [dashes, half]
  · next odd =>
    have half : (n + 1) / 2 = n / 2 + 1 := by omega
    simp [dashes, half, List.replicate_succ']

/-- **The dashes fill what the name leaves of the width**, the larger half of them on the left. -/
theorem framed_banner (name : String) (width : Nat) :
    Framed ((width - name.utf8ByteSize + 1) / 2) name ((width - name.utf8ByteSize) / 2)
      (banner name width) := by
  have left := toList_dashes_append_separator (width - name.utf8ByteSize)
  rw [String.toList_append] at left
  simp only [Framed, banner, String.toList_append, List.append_assoc]
  rw [← List.append_assoc (dashes _).toList, left]
  simp [dashes]

theorem utf8ByteSize_banner (name : String) (width : Nat) :
    (banner name width).utf8ByteSize = max width name.utf8ByteSize + 6 := by
  rw [(framed_banner name width).utf8ByteSize_eq]
  omega

/-! ## A common width -/

/-- The width is four more than the largest of these sizes, counted as twenty at least. -/
theorem bannerWidth_eq (sizes : List Nat) :
    bannerWidth sizes = max 20 (sizes.max?.getD 0) + 4 := by
  rw [bannerWidth, List.foldl_max]
  cases sizes.max? with
  | none => rfl
  | some n => rfl

theorem le_bannerWidth {sizes : List Nat} {n : Nat} (h : n ∈ sizes) :
    n + 4 ≤ bannerWidth sizes := by
  have largest : n ≤ sizes.max?.getD 0 := List.le_max?_getD_of_mem h
  rw [bannerWidth_eq]
  omega

end ShaderLink.Text
