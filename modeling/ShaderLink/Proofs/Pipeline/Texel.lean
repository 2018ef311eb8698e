import ShaderLink.Proofs.Pipeline.Cache
import ShaderLink.Proofs.Pipeline.CarriedOut
import ShaderLink.Proofs.Pipeline.Course

/-!
# The values that a draw is given

A draw gets the values that its operation was given. The size of a texel of the image that it reads
comes behind them if the program asks for it and they do not have it. Whether the program asks for it
was settled when it was compiled, so the text of that moment counts and not what is registered since.

**The law** (`texelLaws_of_create`): every draw of any session was made by an operation that draws, over
the image that was current then, and got the values of `Supplied`, where the text is the one that its
program was compiled from (`BuiltBy`).

The two moments are brought together by the number of the program: it is in the cache when the draw is
made (`Op.Course.draw`), and so it was given to a text compiled before (`exists_builtBy`).

**What it does not establish.** A program that mentions the size of a texel need not read it. What a
caller gives under that name is passed on whatever its type.
-/

set_option autoImplicit false

namespace ShaderLink.Pipeline

variable {β ι π : Type}

/-! ## One draw -/

/-- **What a program of this text gets** over an image of this size, where these values are given. -/
structure Supplied (source : String) (size : Size) (given passed : Uniforms) : Prop where
  /-- Exactly what is given, unless the text mentions the size of a texel and no value of that name is
  given. -/
  same : ("uTexelSize".toList <:+: source.toList → "uTexelSize" ∈ given.names) → passed = given
  /-- In that case one more value, behind all others: the inverses of width and height, where a side
  without pixels counts as one of a single pixel. -/
  added : "uTexelSize".toList <:+: source.toList → "uTexelSize" ∉ given.names →
    passed.toList = given.toList ++ [("uTexelSize", .vec2 (.ofFloat (1 / (max size.width 1).toFloat32))
      (.ofFloat (1 / (max size.height 1).toFloat32)))]
  /-- What is given keeps its value, -/
  kept : ∀ name value, given.get? name = some value → passed.get? name = some value
  /-- and its place. -/
  front : given.toList <+: passed.toList
  /-- No name is passed twice. -/
  unique : passed.names.Nodup

theorem supplied_self {source : String} {size : Size} {given : Uniforms}
    (whole : "uTexelSize".toList <:+: source.toList → "uTexelSize" ∈ given.names) :
    Supplied source size given given where
  same _ := rfl
  added asks missing := absurd (whole asks) missing
  kept _ _ h := h
  front := List.prefix_rfl
  unique := given.nodup

theorem supplied_vec2 {source : String} {size : Size} {given : Uniforms}
    (asks : "uTexelSize".toList <:+: source.toList) (missing : "uTexelSize" ∉ given.names) :
    Supplied source size given (given.vec2 "uTexelSize" size.texel.1 size.texel.2) where
  same whole := absurd (whole asks) missing
  added _ _ := Uniforms.toList_set_of_not_mem missing _
  kept name value h := by
    have other : name ≠ "uTexelSize" := by
      rintro rfl
      have held : given.contains "uTexelSize" = true := by rw [Uniforms.contains, h, Option.isSome_some]
      exact missing (Uniforms.contains_iff_mem_names.1 held)
    rw [Uniforms.vec2, Uniforms.get?_set, if_neg other, h]
  front := by
    rw [Uniforms.vec2, Uniforms.toList_set_of_not_mem missing]
    exact List.prefix_append _ _
  unique := (given.vec2 "uTexelSize" size.texel.1 size.texel.2).nodup

variable [Backend β ι π]

/-- **A program kept from this text is supplied** with the texel of the current image. -/
theorem supplied_uniformsFor (p : Pipeline β ι π) (source : String) (c : π) (given : Uniforms) :
    Supplied source (Backend.imageSize β p.current) given
      (p.uniformsFor (keep source c) given) := by
  have asks : (keep source c).usesTexelSize = true ↔ "uTexelSize".toList <:+: source.toList :=
    Text.mentions_iff
  have has : given.contains "uTexelSize" = true ↔ "uTexelSize" ∈ given.names :=
    Uniforms.contains_iff_mem_names
  rw [uniformsFor, Identifier.texelSize]
  split
  · next h =>
    rw [Bool.and_eq_true, Bool.not_eq_true', ← Bool.not_eq_true, asks, has] at h
    exact supplied_vec2 h.1 h.2
  · next h =>
    rw [Bool.and_eq_true, Bool.not_eq_true', ← Bool.not_eq_true, asks, has, not_and_not_right] at h
    exact supplied_self h

/-! ## All draws -/

/-- **What the draws of a pipeline get** that was `t` when it was created with `options` and has carried
out `ops`. The calls are all those that reached its backend. -/
structure TexelLaws (options : Options) (t : Pipeline (Traced β ι π) ι π) (ops : List Op)
    (calls : List (Call ι π)) : Prop where
  /-- The first call is that of the creation. All other calls are made by the operations. -/
  received : calls = .createTarget options.size (.ok t.current) :: t.untraced.callsAfter ops
  /-- Every draw was made by an operation with the values given to it, over the image current then. Its
  program was compiled for the entry point of the operation, by the operation itself or before, and gets
  the values that the text of that moment calls for. -/
  draws : ∀ program input output passed result, .draw program input output passed result ∈ calls →
    ∃ before op later entry given, ops = before ++ op :: later ∧ op.Draws entry given ∧
      .draw program input output passed result ∈ (t.untraced.after before).callsOf op ∧
      input = (t.untraced.after before).current ∧
      ∃ first builder n source, BuiltBy t (before ++ [op]) first builder entry n source program ∧
        Supplied source (Backend.imageSize β input) given passed

variable {t : Pipeline (Traced β ι π) ι π}

/-- A program that is kept for an entry point was built for it from a text, and is kept from it. -/
theorem exists_builtBy_of_cached (start : t.stock = ⟨∅, ∅, []⟩) {ops : List Op} {entry : String}
    {id : ProgramId} {k : KeptProgram π} (cached : (t.after ops).cached? entry = some id)
    (known : (t.after ops).programs.get? id = some k) :
    ∃ before op n source c, BuiltBy t ops before op entry n source c ∧ k = keep source c := by
  obtain ⟨before, op, n, source, c, built, rfl⟩ := exists_builtBy start ops cached
  have kept := built.get?_ofIndex (start ▸ Stock.Sound.empty)
  exact ⟨before, op, n, source, c, built, Option.some.inj (known.symm.trans kept)⟩

private theorem texelLaws_of_traced {b : β} {registry : Registry} {options : Options}
    (created : (create (Traced.of b) registry options).result = .ok t) (ops : List Op) :
    TexelLaws options t ops (t.after ops).backend.calls.toList where
  received := calls_of_create created ops
  draws program input output passed result made := by
    rw [calls_of_create created] at made
    rcases List.mem_cons.1 made with first | made
    · cases first
    obtain ⟨before, op, later, rfl, now⟩ := exists_mem_callsOf made
    have start : t.stock.Sound := stock_of_create created ▸ Stock.Sound.empty
    have stored : t.untraced.Stored := start.stored
    obtain ⟨entry, given, id, k, draws, cached, known, rfl, current, rfl, -⟩ :=
      (course_step (stored_after stored before) op).draw now
    -- the pipeline that the operation leaves is that of the traced run
    have left : (op.step.run (t.untraced.after before)).state =
        (t.after (before ++ [op])).untraced := by
      rw [untraced_after, after_append]
      rfl
    rw [left] at cached known
    obtain ⟨first, builder, n, source, c, built, rfl⟩ :=
      exists_builtBy_of_cached (stock_of_create created) cached known
    refine ⟨before, op, later, entry, given, rfl, draws, now, current, first, builder, n, source, built,
      ?_⟩
    rw [current]
    exact supplied_uniformsFor _ source c given

/-- **Every draw gets the values given, and the texel behind them if it is asked for**, in any session
and whatever is deferred, loaded, restored or registered anew in it. The calls are those of the same
session with the backend's calls kept. -/
theorem texelLaws_of_create {b : β} {registry : Registry} {options : Options} {p : Pipeline β ι π}
    (h : (create b registry options).result = .ok p) (script : List Action) :
    ∃ t : Pipeline (Traced β ι π) ι π,
      (create (Traced.of b) registry options).result = .ok t ∧ t.untraced = p ∧
      ((Front.direct t).after script).pipeline.untraced =
        ((Front.direct p).after script).pipeline ∧
      TexelLaws options t (p.carriedOut script)
        ((Front.direct t).after script).pipeline.backend.calls.toList := by
  obtain ⟨t, created, rfl⟩ := exists_traced_of_create h
  refine ⟨t, created, rfl, ?_, ?_⟩
  · rw [pipeline_after, pipeline_after, untraced_after, carriedOut_untraced]
  · rw [pipeline_after, carriedOut_untraced]
    exact texelLaws_of_traced created _

/-- A session in which a program that asks for the texel is compiled for a run that gets no target, and
its module is registered anew without asking. Two more runs are deferred, the latter over what the
former has drawn from the photo. The former gets an eighth and a sixth, as the photo is 8 by 6 pixels
in size and not 4 by 4 as the target; the latter keeps the number given in place of a texel. -/
theorem texelLaws_opening :
    let script : List Action := [.op (.register "export vec4 a() { return vec4(uTexelSize); }"),
      .op (.load "photo"), .op (.apply "a" ∅), .op (.register "export vec4 a()"), .defer,
      .op (.apply "a" (Uniforms.empty.float "uAmount" 1)),
      .op (.apply "a" (Uniforms.empty.float "uTexelSize" 0)), .submit]
    (create rehearsal .empty ⟨⟨4, 4⟩, .medium⟩).result = .ok opening ∧
      ∃ t : Pipeline (Traced Rehearsal Picture Nat) Picture Nat,
        (create (Traced.of rehearsal) .empty ⟨⟨4, 4⟩, .medium⟩).result = .ok t ∧
        (((Front.direct t).after script).pipeline.backend.calls.toList.filterMap fun
          | .draw _ input _ passed _ => some (input, passed.toList)
          | .compile .. | .createTarget .. | .decode .. => none) =
            [(⟨"photo", ⟨8, 6⟩⟩, [("uAmount", .float 1), ("uTexelSize", .vec2 ⟨0x3e000000⟩ ⟨0x3e2aaaab⟩)]),
              (⟨"target#3", ⟨4, 4⟩⟩, [("uTexelSize", .float 0)])] ∧
        TexelLaws ⟨⟨4, 4⟩, .medium⟩ t (opening.carriedOut script)
          ((Front.direct t).after script).pipeline.backend.calls.toList := by
  have h : (create rehearsal .empty ⟨⟨4, 4⟩, .medium⟩).result = .ok opening := rfl
  intro script
  obtain ⟨t, created, -, -, laws⟩ := texelLaws_of_create h script
  refine ⟨h, t, created, ?_, laws⟩
  cases created
  decide +kernel

end ShaderLink.Pipeline
