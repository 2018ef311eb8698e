/-!
# Numbers of single precision

A number is kept by its 32 bits, and whoever hands it on hands on these bits. Only where it is compared
or computed does it count as a number, so that the many patterns that are not a number, and the two
zeros, are all kept apart.
-/

set_option autoImplicit false

namespace ShaderLink

/-- A number of single precision, by its bits. -/
@[ext] structure Single where
  bits : UInt32
  deriving DecidableEq, Repr, Inhabited

namespace Single

/-- The number that the bits stand for. -/
def toFloat (x : Single) : Float32 :=
  .ofBits x.bits

/-- The bits of a number that was computed. -/
def ofFloat (x : Float32) : Single :=
  ⟨x.toBits⟩

instance {n : Nat} : OfNat Single n := ⟨ofFloat (.ofNat n)⟩

/-- Whether two are equal as numbers: 0 and −0 are, and what is not a number is not equal to itself. -/
def same (x y : Single) : Bool :=
  x.toFloat == y.toFloat

end Single

end ShaderLink
