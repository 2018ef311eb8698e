/-!
# Programs by number

What a pipeline compiles it keeps, and hands out a number for it. Programs are added and never
removed, so numbers are given in order, none is given twice, and a number stays good for as long as
the pipeline lasts.

**The numbering.** The numbers are those of a slot map that nothing is removed from: the version of a
slot, 1 for all of them, stands in the upper 32 bits of a number, and the slot in the lower ones, where
slot 0 is never given. So the first number is 2³² + 1, and each program added has one more than the
program before. That is so for fewer than 2³² − 2 programs; what a slot map does when it is full is not
described here.

**The laws** (`get?_insert_new`, `get?_insert_of_get?`): a program that is added is found under the
number given for it, and what was found before is found still.
-/

set_option autoImplicit false

namespace ShaderLink

/-- The number by which the host knows a program: that of a slot in its first version. -/
structure ProgramId where
  number : Nat
  deriving DecidableEq, Repr

namespace ProgramId

/-- The number before that of the first program. -/
def base : Nat := 0x100000000

/-- The number of the program that is kept behind `n` others. -/
def ofIndex (n : Nat) : ProgramId := ⟨base + (n + 1)⟩

/-- How many programs are kept before the one with this number, if it can be the number of one. -/
def index? (id : ProgramId) : Option Nat :=
  if base < id.number then some (id.number - (base + 1)) else none

@[simp] theorem index?_ofIndex (n : Nat) : (ofIndex n).index? = some n := by
  have h : base < (ofIndex n).number := by simp only [ofIndex]; omega
  rw [index?, if_pos h]
  simp only [ofIndex, Option.some.injEq]
  omega

theorem ofIndex_inj {m n : Nat} : ofIndex m = ofIndex n ↔ m = n := by
  simp only [ofIndex, mk.injEq]
  omega

end ProgramId

/-- A program as a pipeline keeps it. -/
structure KeptProgram (π : Type) where
  /-- The program as the backend compiled it. -/
  compiled : π
  /-- Whether its text mentions the size of a texel. -/
  usesTexelSize : Bool
  deriving DecidableEq, Repr

/-- The programs kept, the one kept first in front: a slot map in which slots are only filled. -/
structure Programs (π : Type) where
  kept : Array (KeptProgram π)

namespace Programs

variable {π : Type}

/-- No programs. -/
def empty : Programs π := ⟨#[]⟩

instance : EmptyCollection (Programs π) := ⟨empty⟩

/-- The number of programs kept. -/
def size (ps : Programs π) : Nat := ps.kept.size

/-- The program with a number. -/
def get? (ps : Programs π) (id : ProgramId) : Option (KeptProgram π) :=
  id.index?.bind fun n => ps.kept[n]?

/-- Adds a program: the programs then kept, and its number. -/
def insert (ps : Programs π) (p : KeptProgram π) : Programs π × ProgramId :=
  (⟨ps.kept.push p⟩, .ofIndex ps.size)

@[simp] theorem size_insert (ps : Programs π) (p : KeptProgram π) :
    (ps.insert p).1.size = ps.size + 1 := by
  simp [size, insert]

@[simp] theorem get?_ofIndex (ps : Programs π) (n : Nat) : ps.get? (.ofIndex n) = ps.kept[n]? := by
  simp [get?]

theorem get?_insert_new (ps : Programs π) (p : KeptProgram π) :
    (ps.insert p).1.get? (ps.insert p).2 = some p := by
  simp [insert, size]

/-- A number that is good stays good. -/
theorem get?_insert_of_get? {ps : Programs π} {id : ProgramId} {q : KeptProgram π}
    (h : ps.get? id = some q) (p : KeptProgram π) : (ps.insert p).1.get? id = some q := by
  obtain ⟨n, hn, hq⟩ := Option.bind_eq_some_iff.1 h
  obtain ⟨hlt, rfl⟩ := Array.getElem?_eq_some_iff.1 hq
  rw [get?, hn, Option.bind_some, insert, Array.getElem?_push_lt hlt]

end Programs

end ShaderLink
