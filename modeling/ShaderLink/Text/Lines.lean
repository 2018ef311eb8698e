/-!
# Lines of a text

A line feed ends a line, and one carriage return directly before it belongs to the ending. What
follows the last line feed is a line too, unless it is empty, and keeps a carriage return at its
end: there it ends nothing. No other character ends a line.

**The laws** (`join_pieces`, `pieces_join`, `lines_terminated`): the pieces between the line feeds
joined by line feeds are the text, lines without line feeds joined are cut apart again, and lines
each ended by a line feed are the lines of that text.
-/

set_option autoImplicit false

namespace ShaderLink.Text

/-- What stands between the line feeds, one piece more than there are line feeds. -/
def pieces (t : List Char) : List (List Char) :=
  t.splitOn '\n'

/-- The pieces with a line feed between each two. -/
def join (ls : List (List Char)) : List Char :=
  List.intercalate ['\n'] ls

/-- The pieces with a line feed behind each. -/
def terminated (ls : List (List Char)) : List Char :=
  ls.flatMap (· ++ ['\n'])

/-- A line without the carriage return at its end, of several only the last. -/
def dropReturn (l : List Char) : List Char :=
  if l.getLast? = some '\r' then l.dropLast else l

/-- The lines of a text: each piece that a line feed ends, less a carriage return before it, then
the last piece unless it is empty. -/
def lines (t : List Char) : List (List Char) :=
  (pieces t).dropLast.map dropReturn ++ ((pieces t).getLast?.filter (· ≠ [])).toList

/-- The size of each line in bytes of UTF-8. -/
def lineSizes (t : List Char) : List Nat :=
  (lines t).map fun l => (String.ofList l).utf8ByteSize

@[simp] theorem lines_nil : lines [] = [] := by decide

@[simp] theorem join_nil : join [] = [] := rfl

@[simp] theorem join_singleton (l : List Char) : join [l] = l := by simp [join, List.intercalate]

theorem pieces_ne_nil (t : List Char) : pieces t ≠ [] := List.splitOn_ne_nil _ _

theorem join_pieces (t : List Char) : join (pieces t) = t := List.intercalate_splitOn ..

theorem pieces_join {ls : List (List Char)} (h : ∀ l ∈ ls, '\n' ∉ l) (hne : ls ≠ []) :
    pieces (join ls) = ls :=
  List.splitOn_intercalate _ h hne

@[simp] theorem terminated_nil : terminated [] = [] := rfl

@[simp] theorem terminated_cons (l : List Char) (ls : List (List Char)) :
    terminated (l :: ls) = l ++ '\n' :: terminated ls := by simp [terminated]

/-- A line feed behind each piece is one between them and an empty piece at the end. -/
theorem terminated_eq_join (ls : List (List Char)) : terminated ls = join (ls ++ [[]]) := by
  induction ls with
  | nil => rfl
  | cons l ls ih =>
    rw [terminated_cons, ih]
    cases h : ls ++ [[]] with
    | nil => simp at h
    | cons m ms => simp [join, List.intercalate, h]

theorem pieces_terminated {ls : List (List Char)} (h : ∀ l ∈ ls, '\n' ∉ l) :
    pieces (terminated ls) = ls ++ [[]] := by
  rw [terminated_eq_join]
  refine pieces_join (fun l hl => ?_) (by simp)
  rcases List.mem_append.1 hl with hl | hl
  · exact h l hl
  · simp_all

/-- **Lines that are ended each are read back**, less a carriage return at the end of one. -/
theorem lines_terminated {ls : List (List Char)} (h : ∀ l ∈ ls, '\n' ∉ l) :
    lines (terminated ls) = ls.map dropReturn := by
  simp [lines, pieces_terminated h, Option.filter]

end ShaderLink.Text
