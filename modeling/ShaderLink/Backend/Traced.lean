import ShaderLink.Backend

/-!
# Backends that keep their calls

Any backend can be asked to keep a list of the calls made to it, with what each returned. The list
is how statements on the pipeline speak of what reached the backend; keeping it changes no answer.
-/

set_option autoImplicit false

namespace ShaderLink

/-- One call to a backend and what it returned. -/
inductive Call (ι π : Type)
  | compile (source : String) (result : Except BackendError π)
  | createTarget (size : Size) (result : Except BackendError ι)
  | draw (program : π) (input : ι) (output : Destination ι) (uniforms : Uniforms)
      (result : Except BackendError Unit)
  | decode (locator : String) (result : Except BackendError ι)

/-- A backend with the calls made to it so far, in order. -/
structure Traced (β ι π : Type) where
  backend : β
  calls : Array (Call ι π)

namespace Traced

variable {β ι π α : Type}

/-- A backend to which no call was made. -/
def of (b : β) : Traced β ι π := ⟨b, #[]⟩

/-- The backend as a part of the traced one. -/
def backendPart : Part (Traced β ι π) β where
  get t := t.backend
  put b t := { t with backend := b }

/-- Does what the backend does and keeps the call. -/
def keeping (call : Except BackendError α → Call ι π) (j : Job β BackendError α) :
    Job (Traced β ι π) BackendError α := do
  let result ← (j.within backendPart id).attempt
  Job.modify fun t => { t with calls := t.calls.push (call result) }
  Job.ofExcept result

instance [Backend β ι π] : Backend (Traced β ι π) ι π where
  imageSize := Backend.imageSize β
  compile source := keeping (.compile source) (Backend.compile source)
  createTarget size := keeping (.createTarget size) (Backend.createTarget size)
  draw program input output uniforms :=
    keeping (.draw program input output uniforms) (Backend.draw program input output uniforms)
  decode locator := keeping (.decode locator) (Backend.decode locator)

/-- **Keeping a call changes no answer**: result and log are the backend's, and its state is the
one it would have. -/
theorem run_keeping (call : Except BackendError α → Call ι π) (j : Job β BackendError α)
    (t : Traced β ι π) :
    (keeping call j).run t =
      ⟨(j.run t.backend).result, ⟨(j.run t.backend).state,
        t.calls.push (call (j.run t.backend).result)⟩, (j.run t.backend).log⟩ := by
  have h : ∀ x : Except BackendError α, x.mapError id = x := by intro x; cases x <;> rfl
  simp [keeping, backendPart, h, Outcome.after]

end Traced

end ShaderLink
