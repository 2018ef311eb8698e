/-!
# Words inside a text

Whether a shader text uses a name is asked of the text alone: the name occurs somewhere in it, in
whatever surroundings. `mentions_iff` says it with the list relation "stands within".
-/

set_option autoImplicit false

namespace ShaderLink.Text

/-- Whether `word` starts at some place of `text`. -/
def occurs (word : List Char) : List Char → Bool
  | [] => word.isEmpty
  | c :: text => word.isPrefixOf (c :: text) || occurs word text

/-- Whether `word` stands somewhere in `text`. -/
def mentions (text word : String) : Bool :=
  occurs word.toList text.toList

theorem occurs_iff {word text : List Char} : occurs word text = true ↔ word <:+: text := by
  induction text with
  | nil => simp [occurs]
  | cons c text ih =>
    rw [occurs, Bool.or_eq_true, List.isPrefixOf_iff_prefix, ih, List.infix_cons_iff]

theorem mentions_iff {text word : String} :
    mentions text word = true ↔ word.toList <:+: text.toList :=
  occurs_iff

end ShaderLink.Text
