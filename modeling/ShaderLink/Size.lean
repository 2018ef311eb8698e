import ShaderLink.Single

/-!
# Sizes of images

A size counts the pixels of an image in width and height.
-/

set_option autoImplicit false

namespace ShaderLink

/-- The width and height of an image in pixels. -/
structure Size where
  width : UInt32
  height : UInt32
  deriving DecidableEq, Repr, Inhabited

namespace Size

/-- One pixel of a side of `n` pixels as a part of that side. A side without pixels counts as one
of a single pixel. Number and quotient are rounded to single precision. -/
def step (n : UInt32) : Single :=
  .ofFloat (1 / (max n 1).toFloat32)

/-- The size of one pixel, a texel, in coordinates that run from 0 to 1 over the image. -/
def texel (s : Size) : Single × Single :=
  (step s.width, step s.height)

end Size

end ShaderLink
