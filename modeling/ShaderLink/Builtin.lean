import ShaderLink.Registry

/-!
# The built-in modules

Four modules that every registry holds unless it is given a library of its own. They are modules
like others and can be replaced by registering their names.
-/

set_option autoImplicit false

namespace ShaderLink.Builtin

/-- The text of these lines, each ended by a line feed. -/
def text (lines : List String) : String :=
  String.ofList (Text.terminated (lines.map String.toList))

/-- The lines of a function, behind a blank one: its head, and its statements set in between braces. -/
def function (head : String) (statements : List String) : List String :=
  "" :: (head ++ " ").push '{' :: statements.map ("    " ++ ·) ++ [String.singleton '}']

/-- A pseudo-random number from a number or a vector, by one hash of two components. -/
def random : String :=
  text
    (function "float base_random(vec2 st)"
      ["return fract(sin(dot(st, vec2(12.9898, 78.233))) * 43758.5453123);"] ++
    function "export float random(float v)"
      ["return base_random(vec2(v, v));"] ++
    function "overload float random(vec2 v)"
      ["return base_random(v);"] ++
    function "overload float random(vec3 v)"
      ["float r = base_random(vec2(v.x, v.y));",
        "return base_random(vec2(r, v.z));"] ++
    function "overload float random(vec4 v)"
      ["float r1 = base_random(vec2(v.x, v.y));",
        "float r2 = base_random(vec2(v.z, v.w));",
        "return base_random(vec2(r1, r2));"])

/-- The current image as it is. -/
def pass : String :=
  text (function "export vec4 pass()" ["return texture2D(uTexture, vUV);"])

/-- The luminance of the current image. -/
def grayScale : String :=
  text (function "export float gray_scale()"
    ["vec4 color = texture2D(uTexture, vUV);",
      "return dot(color.rgb, vec3(0.2126, 0.7152, 0.0722));"])

/-- A weighted sum over a point of the current image and its eight neighbors; the neighbor
`(dx, dy)` is weighted by `weights[dx + 1][dy + 1]`. -/
def convolution : String :=
  text (function "export vec4 convolution(vec2 step, mat3 weights)"
    ["vec4 sum = vec4(0.0);",
      "sum += texture2D(uTexture, vUV + step * vec2(-1.0, -1.0)) * weights[0][0];",
      "sum += texture2D(uTexture, vUV + step * vec2(-1.0,  0.0)) * weights[0][1];",
      "sum += texture2D(uTexture, vUV + step * vec2(-1.0,  1.0)) * weights[0][2];",
      "sum += texture2D(uTexture, vUV + step * vec2( 0.0, -1.0)) * weights[1][0];",
      "sum += texture2D(uTexture, vUV)                           * weights[1][1];",
      "sum += texture2D(uTexture, vUV + step * vec2( 0.0,  1.0)) * weights[1][2];",
      "sum += texture2D(uTexture, vUV + step * vec2( 1.0, -1.0)) * weights[2][0];",
      "sum += texture2D(uTexture, vUV + step * vec2( 1.0,  0.0)) * weights[2][1];",
      "sum += texture2D(uTexture, vUV + step * vec2( 1.0,  1.0)) * weights[2][2];",
      "return sum;"])

/-- The built-in texts, in the order in which they are registered. -/
def sources : List String := [random, pass, grayScale, convolution]

/-- The entry point that shows the current image. -/
def passEntry : String := "pass"

end ShaderLink.Builtin

namespace ShaderLink.Builtin

/-- The lines of a text are read one by one. -/
private theorem readLines_text {ls : List String} (h : ∀ l ∈ ls, '\n' ∉ l.toList) :
    Module.readLines (text ls) = ls.map fun l => Line.read (Text.dropReturn l.toList) := by
  have h' : ∀ l ∈ ls.map String.toList, '\n' ∉ l := by simpa using h
  simp [Module.readLines, text, Text.lines_terminated h']

/-- One line that exports is enough. -/
private theorem parse_text {ls : List String} (h : ∀ l ∈ ls, '\n' ∉ l.toList)
    (exports : ∃ l ∈ ls, (Line.read (Text.dropReturn l.toList)).exported?.isSome = true) :
    ∃ m, Module.parse (text ls) = .ok m := by
  obtain ⟨l, hl, some⟩ := exports
  cases hp : Module.parse (text ls) with
  | ok m => exact ⟨m, rfl⟩
  | error e =>
    have none := (Module.parse_eq_error_iff.1 hp).1
    rw [readLines_text h, Module.exported?, Option.map_eq_none_iff, List.getLast?_eq_none_iff,
      List.filterMap_eq_nil_iff] at none
    rw [none _ (List.mem_map_of_mem hl)] at some
    cases some

/-- Every built-in text is a module. -/
theorem parse_of_mem_sources {source : String} (h : source ∈ sources) :
    ∃ m, Module.parse source = .ok m := by
  simp only [sources, List.mem_cons, List.not_mem_nil, or_false] at h
  rcases h with rfl | rfl | rfl | rfl <;> exact parse_text (by decide +kernel) (by decide +kernel)

end ShaderLink.Builtin

namespace ShaderLink.Registry

/-- The registry of the built-in modules. -/
def standard : Registry :=
  ((ofSources Builtin.sources).toOption).getD empty

/-- Texts that are modules are registered without fault. -/
theorem registerAll_ok {sources : List String} (h : ∀ s ∈ sources, ∃ m, Module.parse s = .ok m)
    (r : Registry) : ∃ p, r.registerAll sources = .ok p := by
  induction sources generalizing r with
  | nil => exact ⟨_, rfl⟩
  | cons s rest ih =>
    obtain ⟨m, hm⟩ := h s List.mem_cons_self
    obtain ⟨p, hp⟩ := ih (fun t ht => h t (List.mem_cons_of_mem _ ht)) (r.insert m)
    exact ⟨_, by simp [registerAll, register, hm, Except.map, hp]; rfl⟩

/-- The standard registry is the one that registering the built-in texts gives. -/
theorem ofSources_builtin : ofSources Builtin.sources = .ok standard := by
  obtain ⟨p, hp⟩ := registerAll_ok (fun _ => Builtin.parse_of_mem_sources) empty
  have h : ofSources Builtin.sources = .ok p.1 := by rw [ofSources, hp]; rfl
  rw [standard, h]
  rfl

end ShaderLink.Registry
