import Stencil.Proofs.Render.Cache
import Stencil.Proofs.Render.Depth

/-!
# What a render gives

A render to an output that takes everything gives a text, or it fails for some cause. This does not
depend on the place that an error points to, on the limit that it names, or on the cache.

1. `Outcome.given`, `Eval.gives`: what a render gives, and what its blocks give.
2. `Eval.gives_renderBlocks`: the limit on depth is counted down on the way, and which number it was
   at the start is only named in the error.
3. `Eval.Transparent.gives`: blocks give the same in any two runs that differ in the cache only.
-/

namespace Stencil

variable {σ : Type}

/-- A cause, whatever limit it names. -/
def Cause.unnumbered : Cause → Cause
  | .maxDepth _ => .maxDepth 0
  | other => other

theorem Cause.unnumbered_eq_maxDepth_iff {cause : Cause} :
    cause.unnumbered = .maxDepth 0 ↔ cause.isMaxDepth = true := by
  cases cause <;> simp [unnumbered, isMaxDepth]

namespace Outcome

/-- The text of a render, or the cause that it failed for. -/
def given (outcome : Outcome σ) : Except Cause String :=
  outcome.text.mapError fun error => error.cause.unnumbered

theorem text_eq_ok_iff {outcome : Outcome σ} {text : String} :
    outcome.text = .ok text ↔ outcome.given = .ok text := by
  unfold given
  cases outcome.text with
  | ok written =>
    show Except.ok written = Except.ok text ↔ Except.ok written = Except.ok text
    rw [Except.ok.injEq, Except.ok.injEq]
  | error error => exact iff_of_false nofun nofun

theorem reachedLimit_iff {outcome : Outcome σ} :
    outcome.ReachedLimit ↔ outcome.given = .error (.maxDepth 0) := by
  unfold ReachedLimit given text
  cases outcome.result with
  | ok result => exact iff_of_false nofun nofun
  | error error =>
    show _ ↔ Except.error error.cause.unnumbered = Except.error (.maxDepth 0)
    rw [Except.error.injEq, Cause.unnumbered_eq_maxDepth_iff]
    simp

end Outcome

namespace Eval

/-- The text in the output after a step, or the cause that the step failed for. -/
def gives (step : Eval σ Unit) (run : Run σ) : Except Cause String :=
  match step run with
  | .ok () run' => .ok (textOf run'.sink.writes.toList)
  | .error error _ => .error error.cause.unnumbered

variable {step step' : Eval σ Unit} {run run' : Run σ}

theorem gives_of_ok (h : step run = .ok () run') :
    gives step run = .ok (textOf run'.sink.writes.toList) := by
  rw [gives, h]

theorem gives_of_error {error : Error} (h : step run = .error error run') :
    gives step run = .error error.cause.unnumbered := by
  rw [gives, h]

/-- What a step gives depends on how it ends alone. -/
theorem gives_congr (same : step run = step' run') : gives step run = gives step' run' := by
  rw [gives, gives, same]

/-- Two steps give a text if the first one ends, and the second one gives the text behind it. -/
theorem gives_bind_eq_ok_iff {α : Type} (first : Eval σ α) (next : α → Eval σ Unit)
    {text : String} :
    gives (first >>= next) run = .ok text ↔
      ∃ result run', first run = .ok result run' ∧ gives (next result) run' = .ok text := by
  cases ran : first run with
  | ok result run' =>
    rw [gives_congr (bind_of_ok ran next)]
    constructor
    · exact fun given => ⟨result, run', rfl, given⟩
    · rintro ⟨_, _, ⟨⟩, given⟩
      exact given
  | error error run' => simp [gives_of_error (bind_of_error ran next)]

/-- What is captured in an output without writes is what the step gives. -/
theorem capture_eq_ok_iff (fresh : run.sink = .unlimited) {text : String} :
    (∃ run', capture step run = .ok text run') ↔ gives step run = .ok text := by
  have same : { run with sink := .unlimited } = run := by rw [← fresh]
  unfold capture gives
  rw [same]
  cases step run <;> simp

/-- Where a failure is pointed to makes no difference. -/
theorem gives_locate (source : String) (span : Span) (step : Eval σ Unit) (run : Run σ) :
    gives (locate source span step) run = gives step run := by
  unfold gives locate
  cases step run with
  | ok result run' => rfl
  | error error run' => simp only [Error.cause_locate]

/-- The limit that is named makes no difference where the same number of levels is left. Each of the
two renders cuts the other one, so where they differ both end at the limit. -/
theorem gives_renderBlocks (setting : Setting σ) (limit depth : Nat) (place : Place σ)
    (blocks : List Block) (run : Run σ) :
    gives (renderBlocks { setting with maxDepth := limit } depth place blocks) run =
      gives (renderBlocks setting depth place blocks) run := by
  let other : Setting σ := { setting with maxDepth := limit }
  have le := Nat.le_refl depth
  rcases (renderBlocks_cuts setting other rfl rfl le place blocks).same_or_cut run with
    same | ⟨error, run', failed, reached, _⟩
  · exact gives_congr same.symm
  · rcases (renderBlocks_cuts other setting rfl rfl le place blocks).same_or_cut run with
      same | ⟨error', run'', failed', reached', _⟩
    · exact gives_congr same
    · rw [gives_of_error failed, gives_of_error failed']
      simp only [Cause.unnumbered_eq_maxDepth_iff.mpr reached,
        Cause.unnumbered_eq_maxDepth_iff.mpr reached']

/-- What is cached makes no difference. -/
theorem Transparent.gives (transparent : Transparent step) (alike : run.Alike run') :
    gives step run = gives step run' := by
  obtain ⟨texts, same⟩ := transparent run run' alike
  unfold Eval.gives
  generalize step run = ended, step run' = ended' at same
  cases same with
  | ok alike =>
    dsimp only
    rw [alike.sink]
  | error => rfl

end Eval

namespace Engine

/-- A render that prepared its data gives what its blocks give. -/
theorem given_render (engine : Engine σ) {job : Job σ} {host host' : σ} {data : Value σ}
    (ready : job.prepared host = .ok data host') :
    (engine.render job .text host).given =
      Eval.gives (engine.run job (job.start data)) (engine.begin .text host') := by
  rw [engine.render_of_ok .text ready, Eval.gives]
  cases engine.run job (job.start data) (engine.begin .text host') <;> rfl

/-- A render gives a text if its blocks do, whatever limit they would name. -/
theorem text_render_eq_ok_iff (engine : Engine σ) {job : Job σ} {host host' : σ} {data : Value σ}
    (ready : job.prepared host = .ok data host') (program : Program) (keepUndefined : Bool)
    (limit named : Nat) {text : String} :
    (engine.render { job with program, keepUndefined, maxDepth := some limit } .text host).text =
        .ok text ↔
      Eval.gives (renderBlocks ⟨engine.templates, engine.data, named⟩ limit
        ⟨program.source, keepUndefined, job.start data⟩ program.blocks) (engine.begin .text host') =
        .ok text := by
  let changed : Job σ := { job with program, keepUndefined, maxDepth := some limit }
  have changed_ready : changed.prepared host = .ok data host' := ready
  rw [Outcome.text_eq_ok_iff, engine.given_render changed_ready,
    ← Eval.gives_renderBlocks ⟨engine.templates, engine.data, named⟩ limit limit]
  rfl

end Engine

end Stencil
