import ShaderLink.Text.Blank

/-!
# Declarations

A declaration says what a function returns and what it is called: `vec4 tint(vec3 c)` declares
`tint`, which returns a `vec4`. Nothing else of shader source is understood, so a declaration is cut
at two characters only: the return type ends at the first space, the name at the first opening
parenthesis behind it.
-/

set_option autoImplicit false

namespace ShaderLink

/-- The function that a module exports, as its declaration names it. -/
structure Declaration where
  returnType : String
  name : String
  deriving DecidableEq, Repr

namespace Declaration

/-- What stands before the first space, all of the text if it has none. -/
def beforeSpace (text : List Char) : List Char :=
  text.takeWhile (· ≠ ' ')

/-- The text from its first space on. -/
def fromSpace (text : List Char) : List Char :=
  text.dropWhile (· ≠ ' ')

/-- The part that holds the name: from the first space to the first parenthesis of the text. A
parenthesis before the space leaves no room for a name. -/
def namePart (text : List Char) : List Char :=
  if '(' ∈ beforeSpace text then [] else (fromSpace text).takeWhile (· ≠ '(')

/-- Cuts a declaration out of the text that follows `export`. -/
def ofText (text : List Char) : Declaration where
  returnType := String.ofList (Text.trim (beforeSpace text))
  name := String.ofList (Text.trim (namePart text))

/-- The two cuts lose nothing of the text. -/
theorem beforeSpace_append_fromSpace (text : List Char) :
    beforeSpace text ++ fromSpace text = text :=
  List.takeWhile_append_dropWhile

end Declaration

end ShaderLink
