import Mathlib.Data.List.Induction
import ShaderLink.Backend.Rehearsal
import ShaderLink.Proofs.Pipeline.Stock

/-!
# The program cache over whole runs

Operations fail between the places where a pipeline knows its programs, and modules are registered
anew under programs that are cached already.

**The law** (`programLaws_of_create`): after every run, whatever failed in it, each number in the
cache is that of a program kept, no two entry points share one, and there are as many entry points
cached as programs kept as successful compilations. Numbers are given on from 2³² + 1 in the order
of building. A program is the compilation of the text that the registry gave when its entry point
was first built. What is cached stays as it is and is never compiled again.

The proof is by induction on the operations of the run. What an operation can do to the stock of
programs is said by `stocked_step`; the run of operations up to the one that built a program is
carried along as `BuiltBy`.

**What it does not establish.** A backend may give equal programs for different texts: that entry
points have different numbers says nothing of what is behind the numbers. Numbers are natural
numbers here, so that no run is too long for them.
-/

set_option autoImplicit false

namespace ShaderLink.Pipeline

variable {β ι π : Type} [Backend β ι π] {p : Pipeline (Traced β ι π) ι π}

/-! ## Along a run -/

theorem sound_after (h : p.stock.Sound) (ops : List Op) : (p.after ops).stock.Sound :=
  after_of_step (fun p op => sound_of_stocked (stocked_step p op)) h ops

theorem cached_after {entry : String} {id : ProgramId} (known : p.cached? entry = some id)
    (ops : List Op) : (p.after ops).cached? entry = some id :=
  after_of_step (fun p op => (stocked_step p op).cached) known ops

theorem get?_after {id : ProgramId} {k : KeptProgram π} (known : p.programs.get? id = some k)
    (ops : List Op) : (p.after ops).programs.get? id = some k :=
  after_of_step (fun p op => (stocked_step p op).get?) known ops

theorem compiled_grows_after (p : Pipeline (Traced β ι π) ι π) (ops : List Op) :
    p.compiled <+: (p.after ops).compiled := by
  refine after_of_step (P := fun q => p.compiled <+: q.compiled) ?_ List.prefix_rfl ops
  intro q op h
  exact h.trans (stocked_step q op).compiled_grows

theorem stock_of_create {b : β} {registry : Registry} {options : Options}
    (h : (create (Traced.of b : Traced β ι π) registry options).result = .ok p) :
    p.stock = ⟨∅, ∅, []⟩ := by
  obtain ⟨image, t, l, call, rfl⟩ := exists_of_create h
  change (⟨∅, ∅, t.compiles⟩ : Stock π) = ⟨∅, ∅, []⟩
  rw [compiles_of_other call rfl]
  rfl

/-! ## The operation that builds a program -/

/-- `op`, which comes in a run from `p` after `before`, is the operation that caches `entry`: the
program is `c`, it was compiled from `source`, and `n` entry points were cached before. -/
structure BuiltBy (p : Pipeline (Traced β ι π) ι π) (ops before : List Op) (op : Op)
    (entry : String) (n : Nat) (source : String) (c : π) : Prop where
  split : ∃ later, ops = before ++ op :: later
  asks : op.entry? = some entry
  new : (p.after before).cached? entry = none
  count : (p.after before).cache.size = n
  text : (p.after before).generate entry = .ok source
  compiles : (p.after (before ++ [op])).compiled = (p.after before).compiled ++ [(source, c)]
  cached : (p.after (before ++ [op])).cached? entry = some ⟨0x100000000 + (n + 1)⟩

theorem BuiltBy.snoc {ops before : List Op} {op : Op} {entry : String} {n : Nat} {source : String}
    {c : π} (h : BuiltBy p ops before op entry n source c) (last : Op) :
    BuiltBy p (ops ++ [last]) before op entry n source c :=
  { h with
    split := by
      obtain ⟨later, rfl⟩ := h.split
      exact ⟨later ++ [last], by rw [List.append_assoc, List.cons_append]⟩ }

/-- **Every entry point that is cached was built by an operation of the run.** -/
theorem exists_builtBy (start : p.stock = ⟨∅, ∅, []⟩) (ops : List Op) {entry : String}
    {id : ProgramId} (known : (p.after ops).cached? entry = some id) :
    ∃ before op n source c, BuiltBy p ops before op entry n source c ∧ id = .ofIndex n := by
  induction ops using List.reverseRecOn with
  | nil =>
    have none_cached : p.cache = ∅ := congrArg Stock.cache start
    rw [after_nil, cached?, none_cached] at known
    simp at known
  | append_singleton ops last ih =>
    -- Numbers are given by the programs kept, and these are as many as the entry points cached.
    have size : (p.after ops).cache.size = (p.after ops).programs.size :=
      (sound_after (start ▸ Stock.Sound.empty) ops).size
    rw [after_append] at known
    obtain old | ⟨source, c, asks, new, text, added, rfl⟩ :=
      (stocked_step (p.after ops) last).cached_cases known
    · obtain ⟨before, op, n, source, c, built, number⟩ := ih old
      exact ⟨before, op, n, source, c, built.snoc last, number⟩
    · refine ⟨ops, last, _, source, c, ⟨⟨[], rfl⟩, asks, new, rfl, text, ?_, ?_⟩, by rw [size]⟩
      · rw [after_append]
        exact (congrArg Stock.compiled added).trans (Stock.compiled_add ..)
      · rw [after_append, size]
        exact known

/-- The program built behind `n` others is the compilation behind `n` others. -/
theorem BuiltBy.compiled {ops before : List Op} {op : Op} {entry : String} {n : Nat}
    {source : String} {c : π} (h : BuiltBy p ops before op entry n source c)
    (sound : p.stock.Sound) : (p.after ops).compiled[n]? = some (source, c) := by
  have length : (p.after before).compiled.length = n := by
    have sound := sound_after sound before
    rw [← h.count]
    exact (sound.size.trans sound.size_eq_length).symm
  obtain ⟨later, split⟩ := h.split
  have grown : (p.after (before ++ [op])).compiled <+: (p.after ops).compiled := by
    rw [split, List.append_cons before op later, after_append p (before ++ [op]) later]
    exact compiled_grows_after (p.after (before ++ [op])) later
  obtain ⟨more, grown⟩ := grown
  rw [← grown, h.compiles, List.append_assoc, ← length,
    List.getElem?_append_right (Nat.le_refl _), Nat.sub_self]
  rfl

/-- It is kept as it was compiled. -/
theorem BuiltBy.get?_ofIndex {ops before : List Op} {op : Op} {entry : String} {n : Nat}
    {source : String} {c : π} (h : BuiltBy p ops before op entry n source c)
    (sound : p.stock.Sound) : (p.after ops).programs.get? (.ofIndex n) = some (keep source c) := by
  have kept := (sound_after sound ops).get?_ofIndex n
  rw [show (p.after ops).stock.compiled[n]? = _ from h.compiled sound] at kept
  exact kept

/-! ## Numbers that no program has -/

private theorem ne_unknownProgram_of_built {p' : Pipeline (Traced β ι π) ι π} {entry : String}
    {e : PipelineError} (h : Built p entry (.error e) p') (n : Nat) : e ≠ .unknownProgram n := by
  cases h with
  | ungenerated new text => exact nofun
  | refused new text call => exact nofun

private theorem ne_unknownProgram_of_drawn {p' : Pipeline (Traced β ι π) ι π} {id : ProgramId}
    {output : Destination ι} {given : Uniforms} {r : Except PipelineError Unit}
    (h : Drawn p id output given r p') {k : KeptProgram π} (known : p.programs.get? id = some k)
    (n : Nat) : r ≠ .error (.unknownProgram n) := by
  cases h with
  | unknown missing =>
    rw [known] at missing
    cases missing
  | @called k r b l known call => cases r <;> exact nofun

/-- **No operation runs a program by a number that none has**, as long as the cache is sound. -/
theorem ne_unknownProgram_of_runs (sound : p.stock.Sound) {op : Op}
    {r : Except PipelineError Unit} {p' : Pipeline (Traced β ι π) ι π} (h : op.Runs p r p')
    (n : Nat) : r ≠ .error (.unknownProgram n) := by
  cases h with
  | unbuilt asks build =>
    intro heq
    exact ne_unknownProgram_of_built build n (Except.error.inj heq)
  | undrawn build call draw =>
    obtain ⟨k, known⟩ := exists_get?_of_built sound.stored build
    exact ne_unknownProgram_of_drawn draw known n
  | presented build draw =>
    obtain ⟨k, known⟩ := exists_get?_of_built sound.stored build
    exact ne_unknownProgram_of_drawn draw known n
  | registered | unread | built | untargeted | applied | loaded | undecoded | saved | restored
  | unsaved => exact nofun

/-! ## The law -/

/-- **What holds of the programs of a pipeline** that was `p` when it was created and has carried
out `ops`. -/
structure ProgramLaws (p : Pipeline (Traced β ι π) ι π) (ops : List Op) : Prop where
  /-- A number in the cache is that of a program kept. -/
  stored : ∀ entry id, (p.after ops).cached? entry = some id →
    ∃ k, (p.after ops).programs.get? id = some k
  /-- No operation runs a program by a number that none has. -/
  known : ∀ (op : Op) (n : Nat), (op.step.run (p.after ops)).result ≠ .error (.unknownProgram n)
  /-- Entry points have numbers of their own. -/
  distinct : ∀ entry entry' id, (p.after ops).cached? entry = some id →
    (p.after ops).cached? entry' = some id → entry = entry'
  /-- There are as many entry points as programs as successful compilations. -/
  sizes : (p.after ops).cache.size = (p.after ops).programs.size ∧
    (p.after ops).programs.size = (p.after ops).compiled.length
  /-- The numbers given are those from 2³² + 1 on, without a gap. -/
  numbered : ∀ n < (p.after ops).cache.size,
    ∃ entry, (p.after ops).cached? entry = some ⟨0x100000000 + (n + 1)⟩
  /-- What is cached was built by an operation of the run. Its number and its place among the
  compilations are those in the order of building, and the program is kept as it was compiled from
  the text of that moment, with the mark whether that text asks for the size of a texel. -/
  built : ∀ entry id, (p.after ops).cached? entry = some id →
    ∃ before op n source c, BuiltBy p ops before op entry n source c ∧
      id.number = 0x100000000 + (n + 1) ∧ (p.after ops).compiled[n]? = some (source, c) ∧
      ∃ asks, (p.after ops).programs.get? id = some ⟨c, asks⟩ ∧
        (asks = true ↔ "uTexelSize".toList <:+: source.toList)
  /-- The number answered for an entry point is the one in the cache. -/
  answered : ∀ entry id, ((program entry).run (p.after ops)).result = .ok id →
    ((program entry).run (p.after ops)).state.cached? entry = some id
  /-- An operation has at most one text compiled, and only that of an entry point that is not
  cached. -/
  compiling : ∀ op : Op,
    (op.step.run (p.after ops)).state.backend.compiles = (p.after ops).backend.compiles ∨
    ∃ entry source result, op.entry? = some entry ∧ (p.after ops).cached? entry = none ∧
      (p.after ops).generate entry = .ok source ∧
      (op.step.run (p.after ops)).state.backend.compiles =
        (p.after ops).backend.compiles ++ [(source, result)]
  /-- What is cached stays as it is and is not compiled again, whatever comes. -/
  lasting : ∀ entry id more, (p.after ops).cached? entry = some id →
    (p.after (ops ++ more)).cached? entry = some id ∧
    (p.after (ops ++ more)).programs.get? id = (p.after ops).programs.get? id ∧
    ∀ op : Op, op.entry? = some entry →
      (op.step.run (p.after (ops ++ more))).state.backend.compiles =
        (p.after (ops ++ more)).backend.compiles

private theorem programLaws_of_traced {b : β} {registry : Registry} {options : Options}
    (h : (create (Traced.of b) registry options).result = .ok p) (ops : List Op) :
    ProgramLaws p ops := by
  have start := stock_of_create h
  have sound : p.stock.Sound := start ▸ Stock.Sound.empty
  have now := sound_after sound ops
  constructor
  case stored =>
    intro entry id known
    exact now.exists_get? known
  case known =>
    intro op n
    exact ne_unknownProgram_of_runs now (runs_step op (p.after ops)) n
  case distinct => exact now.injective
  case sizes => exact ⟨now.size, now.size_eq_length⟩
  case numbered =>
    intro n hn
    exact now.onto n (now.size ▸ hn)
  case built =>
    intro entry id known
    obtain ⟨before, op, n, source, c, built, rfl⟩ := exists_builtBy start ops known
    exact ⟨before, op, n, source, c, built, rfl, built.compiled sound, _, built.get?_ofIndex sound,
      Text.mentions_iff⟩
  case answered =>
    intro entry id answer
    have build := built_of_run (rfl : (program entry).run (p.after ops) = _)
    rw [answer] at build
    generalize ((program entry).run (p.after ops)).state = q at build
    cases build with
    | cached known => exact known
    | compiled new text call => simp [cached?]
  case compiling =>
    intro op
    generalize heq : (op.step.run (p.after ops)).state = q
    have how := stocked_step (p.after ops) op
    rw [heq] at how
    exact how.compiles_cases
  case lasting =>
    intro entry id more known
    obtain ⟨k, kept⟩ := now.exists_get? known
    have later := cached_after known more
    rw [after_append]
    refine ⟨later, (get?_after kept more).trans kept.symm, ?_⟩
    intro op asks
    exact (stocked_step ((p.after ops).after more) op).compiles later asks

/-- **The cache is kept over every run of every pipeline**, whatever fails in it and whatever is
registered. The run is told with the backend's calls kept, which changes nothing else in it. -/
theorem programLaws_of_create {b : β} {registry : Registry} {options : Options}
    {p : Pipeline β ι π} (h : (create b registry options).result = .ok p) (ops : List Op) :
    ∃ t : Pipeline (Traced β ι π) ι π,
      (create (Traced.of b) registry options).result = .ok t ∧
      (t.after ops).untraced = p.after ops ∧ ProgramLaws t ops := by
  rw [create_untraced] at h
  cases ht : (create (Traced.of b : Traced β ι π) registry options).result with
  | error e =>
    rw [ht] at h
    cases h
  | ok t =>
    rw [ht] at h
    obtain rfl : t.untraced = p := Except.ok.inj h
    exact ⟨t, rfl, untraced_after t ops, programLaws_of_traced ht ops⟩

/-- A rehearsal in which the second target is refused. -/
def rehearsal : Rehearsal := .of ⟨[("photo", ⟨8, 6⟩)], ["broken"], [2], []⟩

/-- The pipeline for the rehearsal, with nothing registered. -/
def opening : Pipeline Rehearsal Picture Nat where
  backend := { rehearsal with targets := 1 }
  registry := .empty
  options := ⟨⟨4, 4⟩, .medium⟩
  programs := ∅
  cache := ∅
  current := ⟨"target#1", ⟨4, 4⟩⟩
  saved := ∅

/-- A run in which a target is refused behind a compilation, and the module is registered anew under
its cached program. -/
theorem programLaws_opening :
    let ops : List Op :=
      [.register "export vec4 pass() { return texture2D(uTexture, vUV); }", .load "photo",
        .apply "pass" ∅, .register "export vec4 pass() { return vec4(0.0); }", .present]
    (create rehearsal .empty ⟨⟨4, 4⟩, .medium⟩).result = .ok opening ∧
      ∃ t : Pipeline (Traced Rehearsal Picture Nat) Picture Nat,
        (create (Traced.of rehearsal) .empty ⟨⟨4, 4⟩, .medium⟩).result = .ok t ∧
        (t.after ops).untraced = opening.after ops ∧ ProgramLaws t ops := by
  have h : (create rehearsal .empty ⟨⟨4, 4⟩, .medium⟩).result = .ok opening := rfl
  exact ⟨h, programLaws_of_create h _⟩

example :
    let p := opening.after [.register "export vec4 a()", .apply "a" ∅, .present]
    p.cached? "a" = some ⟨0x100000001⟩ ∧ p.cached? "pass" = none ∧ p.programs.size = 1 := by
  decide +kernel

end ShaderLink.Pipeline
