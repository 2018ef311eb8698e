import ShaderLink.Text.Lines

/-!
# Numbered listings

A listing shows a text with the number of each line in front of it. It goes to the log beside the
compilation of a program, where a message of the graphics driver names a line by its number.
-/

set_option autoImplicit false

namespace ShaderLink.Text

/-- A line number in decimal, moved right to five columns; a longer one is written in full. -/
def lineNumber (n : Nat) : List Char :=
  (Nat.toDigits 10 n).leftpad 5 ' '

/-- One row: the line's number, a colon and a space, then the line as it is. -/
def numbered (n : Nat) (line : List Char) : List Char :=
  lineNumber n ++ [':', ' '] ++ line

/-- The rows of a text, counted from one. -/
def rows (t : List Char) : List (List Char) :=
  ((lines t).zipIdx 1).map fun p => numbered p.2 p.1

/-- The rows of `source`, a line feed after each. -/
def listing (source : String) : String :=
  String.ofList (terminated (rows source.toList))

theorem length_rows (t : List Char) : (rows t).length = (lines t).length := by simp [rows]

theorem getElem?_rows (t : List Char) (i : Nat) :
    (rows t)[i]? = (lines t)[i]?.map (numbered (i + 1)) := by
  simp [rows, List.getElem?_zipIdx, Function.comp_def, Nat.add_comm]

end ShaderLink.Text
