import ShaderLink.Proofs.Pipeline.Trace

/-!
# The stock of programs

A pipeline knows programs in three places: it keeps what the backend compiled, under numbers; it
has a cache from entry points to these numbers; and the backend has made the compilations. `Stock`
is the three as one value.

**The laws**: an operation leaves the stock as it is, or notes a refused compilation, or adds one
entry point in all three places (`stocked_step`); and each of these keeps the three in agreement
(`sound_of_stocked`).
-/

set_option autoImplicit false

namespace ShaderLink

variable {β ι π : Type}

/-- The text that a call had compiled and what came of it. -/
def Call.compilation? : Call ι π → Option (String × Except BackendError π)
  | .compile source result => some (source, result)
  | .createTarget .. | .draw .. | .decode .. => none

/-- The texts that a backend was to compile, in order, with what came of it. -/
def Traced.compiles (t : Traced β ι π) : List (String × Except BackendError π) :=
  t.calls.toList.filterMap Call.compilation?

namespace Pipeline

/-- What is known of programs. -/
structure Stock (π : Type) where
  programs : Programs π
  cache : Std.ExtTreeMap String ProgramId
  compiles : List (String × Except BackendError π)

namespace Stock

/-- The compilations that succeeded. -/
def compiled (s : Stock π) : List (String × π) :=
  s.compiles.filterMap fun x => x.2.toOption.map fun c => (x.1, c)

/-- What becomes of the stock when a compilation is refused, -/
def refuse (s : Stock π) (source : String) (e : BackendError) : Stock π :=
  { s with compiles := s.compiles ++ [(source, .error e)] }

/-- and when one is made for an entry point. -/
def add (s : Stock π) (entry source : String) (c : π) : Stock π where
  programs := (s.programs.insert (keep source c)).1
  cache := s.cache.insert entry (s.programs.insert (keep source c)).2
  compiles := s.compiles ++ [(source, .ok c)]

@[simp] theorem compiled_refuse (s : Stock π) (source : String) (e : BackendError) :
    (s.refuse source e).compiled = s.compiled := by
  simp [compiled, refuse, Except.toOption]

@[simp] theorem compiled_add (s : Stock π) (entry source : String) (c : π) :
    (s.add entry source c).compiled = s.compiled ++ [(source, c)] := by
  simp [compiled, add, Except.toOption]

@[simp] theorem size_add (s : Stock π) (entry source : String) (c : π) :
    (s.add entry source c).programs.size = s.programs.size + 1 :=
  Programs.size_insert ..

theorem getElem?_add (s : Stock π) (entry source : String) (c : π) (e : String) :
    (s.add entry source c).cache[e]? =
      if entry = e then some (ProgramId.ofIndex s.programs.size) else s.cache[e]? := by
  simp [add, Programs.insert, Std.ExtTreeMap.getElem?_insert]

/-- **The three places agree**: programs are kept as they were compiled, and numbered on from the
first, with one entry point for each. -/
structure Sound (s : Stock π) : Prop where
  kept : s.programs.kept.toList = s.compiled.map fun x => keep x.1 x.2
  size : s.cache.size = s.programs.size
  bounded : ∀ (entry : String) (id : ProgramId), s.cache[entry]? = some id →
    ∃ n < s.programs.size, id = .ofIndex n
  injective : ∀ (entry entry' : String) (id : ProgramId),
    s.cache[entry]? = some id → s.cache[entry']? = some id → entry = entry'
  onto : ∀ n < s.programs.size, ∃ entry : String, s.cache[entry]? = some (.ofIndex n)

namespace Sound

variable {s : Stock π}

theorem empty : Sound (⟨∅, ∅, []⟩ : Stock π) where
  kept := rfl
  size := rfl
  bounded entry id h := by simp at h
  injective entry entry' id h := by simp at h
  onto n h := absurd h (Nat.not_lt_zero n)

theorem refuse (h : s.Sound) (source : String) (e : BackendError) : (s.refuse source e).Sound :=
  { h with kept := by rw [compiled_refuse]; exact h.kept }

/-- The number of the next program is not in the cache yet. -/
theorem not_cached (h : s.Sound) (entry : String) :
    s.cache[entry]? ≠ some (ProgramId.ofIndex s.programs.size) := by
  intro known
  obtain ⟨n, hn, heq⟩ := h.bounded entry _ known
  rw [ProgramId.ofIndex_inj] at heq
  omega

theorem add (h : s.Sound) {entry : String} (new : s.cache[entry]? = none) (source : String)
    (c : π) : (s.add entry source c).Sound where
  kept := by
    rw [compiled_add, List.map_append, ← h.kept]
    simp [Stock.add, Programs.insert]
  size := by
    have hm : entry ∉ s.cache := by simpa using new
    rw [size_add, ← h.size]
    simp [Stock.add, Std.ExtTreeMap.size_insert, hm]
  bounded e id known := by
    rw [getElem?_add] at known
    rw [size_add]
    split at known
    · exact ⟨s.programs.size, by omega, (Option.some.inj known).symm⟩
    · obtain ⟨n, hn, heq⟩ := h.bounded e id known
      exact ⟨n, by omega, heq⟩
  injective e e' id known known' := by
    -- An entry point that was cached before has a smaller number than the one just given.
    rw [getElem?_add] at known known'
    split at known <;> split at known'
    next he he' => exact he.symm.trans he'
    next he he' =>
      rw [← Option.some.inj known] at known'
      exact absurd known' (h.not_cached e')
    next he he' =>
      rw [← Option.some.inj known'] at known
      exact absurd known (h.not_cached e)
    next he he' => exact h.injective e e' id known known'
  onto n hn := by
    rw [size_add] at hn
    rcases Nat.lt_succ_iff_lt_or_eq.1 hn with hlt | rfl
    · obtain ⟨e, known⟩ := h.onto n hlt
      have other : entry ≠ e := by
        rintro rfl
        rw [new] at known
        cases known
      exact ⟨e, by rw [getElem?_add, if_neg other, known]⟩
    · exact ⟨entry, by rw [getElem?_add, if_pos rfl]⟩

theorem size_eq_length (h : s.Sound) : s.programs.size = s.compiled.length := by
  rw [Programs.size, ← Array.length_toList, h.kept, List.length_map]

theorem get?_ofIndex (h : s.Sound) (n : Nat) :
    s.programs.get? (.ofIndex n) = s.compiled[n]?.map fun x => keep x.1 x.2 := by
  rw [Programs.get?_ofIndex, ← Array.getElem?_toList, h.kept, List.getElem?_map]

/-- A number in the cache is that of a program kept. -/
theorem exists_get? (h : s.Sound) {entry : String} {id : ProgramId}
    (known : s.cache[entry]? = some id) : ∃ k, s.programs.get? id = some k := by
  obtain ⟨n, hn, rfl⟩ := h.bounded entry id known
  rw [Programs.get?_ofIndex]
  exact ⟨_, Array.getElem?_eq_getElem hn⟩

end Sound

end Stock

/-- What a pipeline and its backend know of programs. -/
def stock (p : Pipeline (Traced β ι π) ι π) : Stock π := ⟨p.programs, p.cache, p.backend.compiles⟩

theorem Stock.Sound.stored {p : Pipeline (Traced β ι π) ι π} (h : p.stock.Sound) : p.Stored :=
  fun _ _ known => h.exists_get? known

/-- The successful compilations for a pipeline, in order: each text with what was made of it. -/
def compiled (p : Pipeline (Traced β ι π) ι π) : List (String × π) := p.stock.compiled

/-! ## One operation -/

/-- What becomes of the stock of `p` by an operation. -/
inductive Stocked (p : Pipeline (Traced β ι π) ι π) (op : Op) : Stock π → Prop
  | same : Stocked p op p.stock
  | refused {entry source : String} {e : BackendError} (asks : op.entry? = some entry)
      (new : p.cached? entry = none) (text : p.generate entry = .ok source) :
      Stocked p op (p.stock.refuse source e)
  | added {entry source : String} {c : π} (asks : op.entry? = some entry)
      (new : p.cached? entry = none) (text : p.generate entry = .ok source) :
      Stocked p op (p.stock.add entry source c)

variable {p p' : Pipeline (Traced β ι π) ι π} {op : Op}

theorem Stocked.cached {s : Stock π} (h : Stocked p op s) {entry : String} {id : ProgramId}
    (known : p.cached? entry = some id) : s.cache[entry]? = some id := by
  cases h with
  | same => exact known
  | refused asks new text => exact known
  | @added entry' source c asks new text =>
    have other : entry' ≠ entry := by
      rintro rfl
      rw [new] at known
      cases known
    rw [Stock.getElem?_add, if_neg other]
    exact known

/-- What is cached was cached before, or it is what is added. -/
theorem Stocked.cached_cases {s : Stock π} (h : Stocked p op s) {entry : String} {id : ProgramId}
    (known : s.cache[entry]? = some id) :
    p.cached? entry = some id ∨ ∃ source c, op.entry? = some entry ∧ p.cached? entry = none ∧
      p.generate entry = .ok source ∧ s = p.stock.add entry source c ∧
        id = .ofIndex p.programs.size := by
  cases h with
  | same => exact .inl known
  | refused asks new text => exact .inl known
  | @added entry' source c asks new text =>
    rw [Stock.getElem?_add] at known
    split at known
    next he =>
      subst he
      exact .inr ⟨source, c, asks, new, text, rfl, (Option.some.inj known).symm⟩
    next he => exact .inl known

theorem Stocked.get? {s : Stock π} (h : Stocked p op s) {id : ProgramId} {k : KeptProgram π}
    (known : p.programs.get? id = some k) : s.programs.get? id = some k := by
  cases h with
  | same => exact known
  | refused asks new text => exact known
  | added asks new text => exact Programs.get?_insert_of_get? known _

/-- No number comes to dangle. -/
theorem Stocked.exists_get? {s : Stock π} (h : Stocked p op s) (stored : p.Stored) {entry : String}
    {id : ProgramId} (known : s.cache[entry]? = some id) : ∃ k, s.programs.get? id = some k := by
  obtain old | ⟨source, c, -, -, -, rfl, rfl⟩ := h.cached_cases known
  · obtain ⟨k, kept⟩ := stored entry id old
    exact ⟨k, h.get? kept⟩
  · exact ⟨_, Programs.get?_insert_new ..⟩

theorem Stocked.compiled_grows {s : Stock π} (h : Stocked p op s) : p.compiled <+: s.compiled := by
  cases h with
  | same => exact List.prefix_rfl
  | refused asks new text =>
    rw [Stock.compiled_refuse]
    exact List.prefix_rfl
  | added asks new text =>
    rw [Stock.compiled_add]
    exact List.prefix_append ..

theorem Stocked.compiles_cases {s : Stock π} (h : Stocked p op s) :
    s.compiles = p.backend.compiles ∨
      ∃ entry source result, op.entry? = some entry ∧ p.cached? entry = none ∧
        p.generate entry = .ok source ∧ s.compiles = p.backend.compiles ++ [(source, result)] := by
  cases h with
  | same => exact .inl rfl
  | refused asks new text => exact .inr ⟨_, _, _, asks, new, text, rfl⟩
  | added asks new text => exact .inr ⟨_, _, _, asks, new, text, rfl⟩

theorem Stocked.compiles {s : Stock π} (h : Stocked p op s) {entry : String} {id : ProgramId}
    (known : p.cached? entry = some id) (asks : op.entry? = some entry) :
    s.compiles = p.backend.compiles := by
  obtain same | ⟨entry', source, result, asks', new, -, -⟩ := h.compiles_cases
  · exact same
  · rw [asks, Option.some.injEq] at asks'
    rw [← asks', known] at new
    cases new

/-- **An operation keeps the agreement.** -/
theorem sound_of_stocked {s : Stock π} (h : Stocked p op s) (sound : p.stock.Sound) : s.Sound := by
  cases h with
  | same => exact sound
  | refused asks new text => exact sound.refuse _ _
  | added asks new text => exact sound.add new _ _

/-! ## Every operation -/

section Calls

variable {α : Type} {call : Except BackendError α → Call ι π} {j : Job β BackendError α}
  {r : Except BackendError α} {s t : Traced β ι π} {l : List Log.Entry}

theorem compiles_of_other (h : (Traced.keeping call j).run s = ⟨r, t, l⟩)
    (other : (call r).compilation? = none) : t.compiles = s.compiles := by
  simp [Traced.compiles, Traced.calls_of_keeping h, other]

private theorem compiles_of_compile {source : String} {j : Job β BackendError π}
    {r : Except BackendError π} (h : (Traced.keeping (Call.compile source) j).run s = ⟨r, t, l⟩) :
    t.compiles = s.compiles ++ [(source, r)] := by
  simp [Traced.compiles, Traced.calls_of_keeping h, Call.compilation?]

end Calls

private theorem stock_withBackend {t : Traced β ι π} (h : t.compiles = p.backend.compiles) :
    ({ p with backend := t } : Pipeline (Traced β ι π) ι π).stock = p.stock :=
  congrArg (Stock.mk p.programs p.cache) h

variable [Backend β ι π]

private theorem stocked_of_built {entry : String} {r : Except PipelineError ProgramId}
    (h : Built p entry r p') (asks : op.entry? = some entry) : Stocked p op p'.stock := by
  cases h with
  | cached known => exact .same
  | ungenerated new text => exact .same
  | @refused source e t _ new text call =>
    change Stocked p op ⟨p.programs, p.cache, t.compiles⟩
    rw [compiles_of_compile call]
    exact .refused asks new text
  | @compiled source c t _ new text call =>
    change Stocked p op ⟨(p.programs.insert (keep source c)).1,
      p.cache.insert entry (p.programs.insert (keep source c)).2, t.compiles⟩
    rw [compiles_of_compile call]
    exact .added asks new text

private theorem stock_of_drawn {id : ProgramId} {output : Destination ι} {given : Uniforms}
    {r : Except PipelineError Unit} (h : Drawn p id output given r p') : p'.stock = p.stock := by
  cases h with
  | unknown missing => rfl
  | called known call => exact stock_withBackend (compiles_of_other call rfl)

theorem stocked_of_runs {r : Except PipelineError Unit} (h : op.Runs p r p') :
    Stocked p op p'.stock := by
  -- Behind the program, an operation only makes calls that compile nothing.
  cases h with
  | registered read => exact .same
  | unread read => exact .same
  | unbuilt asks build => exact stocked_of_built build asks
  | built build => exact stocked_of_built build rfl
  | untargeted build call =>
    rw [stock_withBackend (compiles_of_other call rfl)]
    exact stocked_of_built build rfl
  | undrawn build call draw =>
    rw [stock_of_drawn draw, stock_withBackend (compiles_of_other call rfl)]
    exact stocked_of_built build rfl
  | @applied _ _ _ _ p'' target _ _ build call draw =>
    change Stocked p _ p''.stock
    rw [stock_of_drawn draw, stock_withBackend (compiles_of_other call rfl)]
    exact stocked_of_built build rfl
  | presented build draw =>
    rw [stock_of_drawn draw]
    exact stocked_of_built build rfl
  | @loaded locator image t _ call =>
    change Stocked p _ ({ p with backend := t } : Pipeline (Traced β ι π) ι π).stock
    rw [stock_withBackend (compiles_of_other call rfl)]
    exact .same
  | undecoded call =>
    rw [stock_withBackend (compiles_of_other call rfl)]
    exact .same
  | saved => exact .same
  | restored known => exact .same
  | unsaved missing => exact .same

/-- **An operation leaves the stock, notes a refusal or adds an entry point.** -/
theorem stocked_step (p : Pipeline (Traced β ι π) ι π) (op : Op) :
    Stocked p op (op.step.run p).state.stock :=
  stocked_of_runs (runs_step op p)

end Pipeline

end ShaderLink
