/-!
# Names that shader text and host share

A program reaches the image it samples, its coordinate and the grain of the image under fixed
identifiers; the host fills them in.
-/

set_option autoImplicit false

namespace ShaderLink.Identifier

/-- The sampler that holds the image a program reads. -/
def texture : String := "uTexture"

/-- The two-component uniform with the size of one texel of that image. -/
def texelSize : String := "uTexelSize"

/-- The interpolated coordinate in the image. -/
def coordinate : String := "vUV"

end ShaderLink.Identifier
