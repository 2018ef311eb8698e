/-!
# Types that become a color

A fragment program ends by writing a color. Four result types have a conversion to one: a number is
a shade of gray, a pair lacks blue, a triple lacks opacity, and a quadruple is a color already.
-/

set_option autoImplicit false

namespace ShaderLink.Program

/-- A result type with a conversion to a color. -/
inductive OutputType
  | float
  | vec2
  | vec3
  | vec4
  deriving DecidableEq, Repr

namespace OutputType

/-- All of them. -/
def all : List OutputType := [float, vec2, vec3, vec4]

/-- The word for the type in shader source. -/
def keyword : OutputType → String
  | float => "float"
  | vec2 => "vec2"
  | vec3 => "vec3"
  | vec4 => "vec4"

/-- The type that a word stands for, if it has a conversion. -/
def ofKeyword? (word : String) : Option OutputType :=
  all.find? fun t => t.keyword == word

/-- The statements that call `entry`, which returns this type, and write the color. -/
def statements (entry : String) : OutputType → String
  | float => "\tfloat v = " ++ entry ++ "();\n\tgl_FragColor = vec4(v, v, v, 1.0);"
  | vec2 => "\tvec2 v = " ++ entry ++ "();\n\tgl_FragColor = vec4(v, 0.0, 1.0);"
  | vec3 => "\tvec3 v = " ++ entry ++ "();\n\tgl_FragColor = vec4(v, 1.0);"
  | vec4 => "\tgl_FragColor = " ++ entry ++ "();"

theorem ofKeyword?_keyword (t : OutputType) : ofKeyword? t.keyword = some t := by
  cases t <;> decide

/-- A word stands for a type iff it is that type's word. -/
theorem ofKeyword?_eq_some_iff {word : String} {t : OutputType} :
    ofKeyword? word = some t ↔ word = t.keyword := by
  constructor
  · intro h
    have := List.find?_some h
    simpa using (beq_iff_eq.1 this).symm
  · rintro rfl
    exact ofKeyword?_keyword t

end OutputType

end ShaderLink.Program
