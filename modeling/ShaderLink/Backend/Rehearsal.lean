import ShaderLink.Backend
import ShaderLink.Text.Occurrence

/-!
# A backend for rehearsals

A backend that draws nothing and answers by a script: which resources there are, which programs are
refused, which of its targets and draws fail. Images are labels with a size, compiled programs are
numbers. A pipeline can be rehearsed with it, and every course of events be called up.
-/

set_option autoImplicit false

namespace ShaderLink

/-- An image that is only a label and a size. -/
structure Picture where
  label : String
  size : Size
  deriving DecidableEq, Repr, Inhabited

/-- The answers that a rehearsal gives. -/
structure Script where
  /-- The resources and the sizes of their images. -/
  images : List (String × Size)
  /-- A program that contains one of these is refused. -/
  rejects : List String
  /-- The targets that are refused, the first ever asked for being number 1. -/
  failTargets : List Nat
  /-- The draws that fail, counted likewise. -/
  failDraws : List Nat
  deriving Inhabited

/-- The script with the counts of what was asked for. -/
structure Rehearsal where
  script : Script
  /-- The programs compiled. -/
  compiled : Nat
  /-- The targets asked for, refused or not. -/
  targets : Nat
  /-- The draws asked for, failed or not. -/
  draws : Nat

namespace Rehearsal

/-- A rehearsal that has not begun. -/
def of (script : Script) : Rehearsal := ⟨script, 0, 0, 0⟩

/-- Counts a program unless the script refuses it; the count stands for the program. -/
def compile (source : String) : Job Rehearsal BackendError Nat := do
  let t ← Job.get
  match t.script.rejects.find? (Text.mentions source ·) with
  | some word => Job.fail (.compile ("rejected " ++ word))
  | none =>
    Job.modify fun t => { t with compiled := t.compiled + 1 }
    return t.compiled + 1

/-- Counts a target and names it by its number. -/
def createTarget (size : Size) : Job Rehearsal BackendError Picture := do
  let t ← Job.get
  let number := t.targets + 1
  Job.modify fun t => { t with targets := number }
  if number ∈ t.script.failTargets then
    Job.fail (.allocate ("target " ++ toString number))
  else
    return ⟨"target#" ++ toString number, size⟩

/-- Counts a draw. -/
def draw : Job Rehearsal BackendError Unit := do
  let t ← Job.get
  let number := t.draws + 1
  Job.modify fun t => { t with draws := number }
  if number ∈ t.script.failDraws then
    Job.fail (.draw ("draw " ++ toString number))

/-- Looks for a resource, which takes one wait. -/
def decode (locator : String) : Job Rehearsal BackendError Picture := do
  Job.wait
  let t ← Job.get
  match t.script.images.lookup locator with
  | some size => return ⟨locator, size⟩
  | none => Job.fail (.decode locator "not found")

instance : Backend Rehearsal Picture Nat where
  imageSize := Picture.size
  compile := compile
  createTarget := createTarget
  draw _ _ _ _ := draw
  decode := decode

end Rehearsal

end ShaderLink
