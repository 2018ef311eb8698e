import ShaderLink.Proofs.Link.Locality
import ShaderLink.Proofs.Pipeline.Cache

/-!
# Registering in another order

A module is registered before an operation or after it. That makes a difference only to an operation
that builds a program from what is registered: what is cached is built already, and an entry point
that does not reach the module is linked without it.

**The law** (`register_commutes`): otherwise registering a module commutes with every operation that
registers nothing itself (`Commute`), whether the operation succeeds or fails.

A pipeline over another registry does the same as long as it generates the same (`run_call_seen`). With
its own registry in place of the other this says that an operation leaves the registry as it is.

**What it does not establish.** Two registrations commute unless they name the same module; that is
said of registries (`Registry.registry_holds_latest`) and not here.
-/

set_option autoImplicit false

namespace ShaderLink

variable {β ι π : Type}

/-- A backend answers as itself. -/
theorem Backend.isView_id [Backend β ι π] : Backend.IsView (id : β → β) where
  imageSize _ := rfl
  compile _ _ := rfl
  createTarget _ _ := rfl
  draw _ _ _ _ _ := rfl
  decode _ _ := rfl

namespace Pipeline

variable {p : Pipeline β ι π} {op : Op} {source : String} {m : Module}

theorem register_of_parse (parsed : Module.parse source = .ok m) (r : Registry) :
    r.register source = .ok (r.insert m, ⟨m.name, r.contains m.name⟩) :=
  Registry.register_eq_ok_iff.2 ⟨m, parsed, rfl, rfl⟩

/-- What is cached is not generated, and what does not reach the module is generated alike. -/
theorem generate_of_unseen (parsed : Module.parse source = .ok m)
    (unseen : ∀ entry, op.entry? = some entry →
      (∃ id, p.cached? entry = some id) ∨ ¬ p.registry.Reaches entry m.name)
    {entry : String} (asks : op.entry? = some entry) (new : p.cached? entry = none) :
    (p.seen id fun _ => p.registry.insert m).generate entry = p.generate entry := by
  have read := register_of_parse parsed p.registry
  obtain ⟨id, known⟩ | unreached := unseen entry asks
  · rw [new] at known
    cases known
  · exact Registry.generate_eq_of_agree (Registry.agree_of_register read unreached) _

variable [Backend β ι π]

/-- **Two operations commute on a pipeline**: in both orders they leave the same pipeline, its backend
included, and make the same calls, and each answers and logs the same. -/
structure Commute (p : Pipeline β ι π) (op op' : Op) : Prop where
  state : p.after [op, op'] = p.after [op', op]
  calls : p.callsAfter [op, op'] = p.callsAfter [op', op]
  answer : (op.call.run (p.after [op'])).result = (op.call.run p).result
  log : (op.call.run (p.after [op'])).log = (op.call.run p).log
  answer' : (op'.call.run (p.after [op])).result = (op'.call.run p).result
  log' : (op'.call.run (p.after [op])).log = (op'.call.run p).log

theorem state_step (op : Op) (p : Pipeline β ι π) : (op.step.run p).state = (op.call.run p).state := by
  rw [Op.step_eq_map_call, Job.run_map]

/-- An operation that registers nothing leaves the registry as it is. -/
theorem registry_call (other : ∀ source, op ≠ .register source) (p : Pipeline β ι π) :
    (op.call.run p).state.registry = p.registry := by
  have same : op.call.run p = (op.call.run p).mapState (seen id fun _ => p.registry) :=
    run_call_seen (g := fun _ => p.registry) Backend.isView_id other p fun _ _ _ => rfl
  rw [same]
  rfl

/-- What registering a module does to any pipeline over the registry. -/
theorem run_register_of_parse (parsed : Module.parse source = .ok m) {r : Registry}
    (h : p.registry = r) :
    (Op.register source).call.run p =
      ⟨.ok (.name m.name), p.seen id fun _ => r.insert m,
        [Registration.logLine ⟨m.name, r.contains m.name⟩]⟩ := by
  subst h
  rw [Op.call, Job.run_map, run_register_ok (register_of_parse parsed p.registry)]
  rfl

private theorem run_call_registered (parsed : Module.parse source = .ok m)
    (other : ∀ source, op ≠ .register source)
    (unseen : ∀ entry, op.entry? = some entry →
      (∃ id, p.cached? entry = some id) ∨ ¬ p.registry.Reaches entry m.name) :
    op.call.run (p.after [.register source]) =
      (op.call.run p).mapState (seen id fun _ => p.registry.insert m) := by
  rw [after_cons, after_nil, state_step, run_register_of_parse parsed rfl]
  exact run_call_seen Backend.isView_id other p fun _ asks new =>
    generate_of_unseen parsed unseen asks new

/-- In both orders the same is left, whatever the backend. -/
private theorem after_register_comm (parsed : Module.parse source = .ok m)
    (other : ∀ source, op ≠ .register source)
    (unseen : ∀ entry, op.entry? = some entry →
      (∃ id, p.cached? entry = some id) ∨ ¬ p.registry.Reaches entry m.name) :
    p.after [op, .register source] = p.after [.register source, op] := by
  change ((Op.register source).step.run (op.step.run p).state).state =
    (op.step.run (p.after [.register source])).state
  rw [state_step, state_step, state_step, run_register_of_parse parsed (registry_call other p),
    run_call_registered parsed other unseen]
  rfl

theorem callsAfter_eq (p : Pipeline β ι π) (ops : List Op) :
    p.callsAfter ops = (p.traced.after ops).backend.calls.toList := by
  rw [calls_after, untraced_traced]
  rfl

/-- **Registering commutes with all that does not build from the module.** A module is registered, and
an operation that registers nothing is carried out; if it asks for the program of an entry point, that
is cached, or the name of the module is not among those that the entry point reaches. Then nothing
tells in which order this is done. -/
theorem register_commutes (p : Pipeline β ι π) {source : String} {m : Module} {op : Op}
    (parsed : Module.parse source = .ok m) (other : ∀ source', op ≠ .register source')
    (unseen : ∀ entry, op.entry? = some entry →
      (∃ id, p.cached? entry = some id) ∨ ¬ p.registry.Reaches entry m.name) :
    Commute p op (.register source) := by
  have registered := run_call_registered parsed other unseen
  have registry : (p.after [op]).registry = p.registry := by
    rw [after_cons, after_nil, state_step]
    exact registry_call other p
  constructor
  case state => exact after_register_comm parsed other unseen
  case calls =>
    rw [callsAfter_eq, callsAfter_eq, after_register_comm (p := p.traced) parsed other unseen]
  case answer => rw [registered, Outcome.mapState]
  case log => rw [registered, Outcome.mapState]
  case answer' =>
    rw [run_register_of_parse parsed registry, run_register_of_parse parsed rfl]
  case log' =>
    rw [run_register_of_parse parsed registry, run_register_of_parse parsed rfl]

/-- An entry point that is not registered reaches only itself. -/
private theorem not_reaches_of_get? {r : Registry} {a b : String} (missing : r.get? a = none)
    (ne : a ≠ b) : ¬ r.Reaches a b := by
  intro reached
  obtain rfl | ⟨n, ⟨d, held, -⟩, -⟩ := reached.cases_head
  · exact ne rfl
  · rw [missing] at held
    cases held

/-- A module is registered anew under its cached program, for which a target is refused, and beside an
entry point that is missing. -/
theorem register_commutes_opening :
    let p := opening.after [.register "export vec4 a()", .program "a"]
    let again := "export vec4 a() { return vec4(0.0); }"
    Module.parse again = .ok ⟨"a", "vec4", "vec4 a() { return vec4(0.0); }", []⟩ ∧
      p.cached? "a" = some ⟨0x100000001⟩ ∧
      ((Op.apply "a" ∅).call.run p).result = .error (.backend (.allocate "target 2")) ∧
      Commute p (.apply "a" ∅) (.register again) ∧
      ((Op.apply "b" ∅).call.run p).result = .error (.build (.unresolvedImport "b" none)) ∧
      Commute p (.apply "b" ∅) (.register again) := by
  intro p again
  have parsed : Module.parse again = .ok ⟨"a", "vec4", "vec4 a() { return vec4(0.0); }", []⟩ := by
    decide +kernel
  have known : p.cached? "a" = some ⟨0x100000001⟩ := by decide +kernel
  have missing : p.registry.get? "b" = none := by decide +kernel
  refine ⟨parsed, known, by decide +kernel, ?_, by decide +kernel, ?_⟩
  · refine register_commutes p parsed (fun _ => nofun) fun entry asks => ?_
    cases asks
    exact .inl ⟨_, known⟩
  · refine register_commutes p parsed (fun _ => nofun) fun entry asks => ?_
    cases asks
    exact .inr (not_reaches_of_get? missing (by decide))

end Pipeline

end ShaderLink
