import Stencil.Render.Blocks
import Stencil.Engine
import Stencil.Value.Evaluate

/-!
# Renders

Rendering a template of an engine: with data as it is or evaluated beforehand, from the root of
the data or from a given position, to a text or to a writer, which may take only so many bytes. A
render changes nothing of its engine but the cache of fragments.

A writer that refuses a write sets its reason aside, while the run ends with an error of formatting
that points to some directive. In the end the reason takes the place of this error.
-/

namespace Stencil

/-- What is to be rendered, and how. -/
structure Job (σ : Type) where
  program : Program
  data : Value σ
  /-- Whether the data is evaluated before anything is rendered. -/
  evaluated : Bool
  /-- Where to start, if not at the root of the data. -/
  context : Option (Context σ)
  /-- Whether placeholders without a value are written again as tags. -/
  keepUndefined : Bool
  /-- The limit on nesting, if not that of the engine. -/
  maxDepth : Option Nat

structure Outcome (σ : Type) where
  result : Except Error Unit
  /-- What the output took. -/
  writes : List Write
  notices : List Notice
  engine : Engine σ
  host : σ

namespace Outcome

variable {σ : Type}

def written (outcome : Outcome σ) : String := textOf outcome.writes

/-- The text of a render that succeeded. -/
def text (outcome : Outcome σ) : Except Error String :=
  outcome.result.map fun () => outcome.written

end Outcome

/-- Where a render writes. -/
inductive Target where
  | text
  /-- A writer, with the number of bytes that it takes if it is limited. -/
  | writer (room : Option Nat)
  deriving DecidableEq, Repr

namespace Target

def sink : Target → Sink
  | text => .unlimited
  | writer room => ⟨#[], room, none⟩

/-- The error of a run that failed. If a writer has set a reason aside, it is named instead. -/
def error (target : Target) (sink : Sink) (error : Error) : Error :=
  match target with
  | text => error
  | writer _ => (sink.refusal.map fun reason => .ofCause (.io reason)).getD error

end Target

namespace Engine

variable {σ : Type}

/-- The part of an engine that a render only reads, with the limit of the job. -/
def setting (engine : Engine σ) (job : Job σ) : Setting σ :=
  ⟨engine.templates, engine.data, job.maxDepth.getD engine.maxDepth⟩

/-- Renders blocks from the start of a run. -/
def run (engine : Engine σ) (job : Job σ) (context : Context σ) : Eval σ Unit :=
  let setting := engine.setting job
  renderBlocks setting setting.maxDepth ⟨job.program.source, job.keepUndefined, context⟩
    job.program.blocks

/-- Renders a job from a state of the host. A given position keeps its own root and value, evaluated
or not. -/
def render (engine : Engine σ) (job : Job σ) (target : Target) (host : σ) : Outcome σ :=
  let prepared := if job.evaluated then job.data.evaluate host else .ok job.data host
  match prepared with
  | .error error host => ⟨.error error, [], [], engine, host⟩
  | .ok data host =>
    let context := job.context.getD (.atRoot data)
    match engine.run job context ⟨host, engine.cache, #[], target.sink⟩ with
    | .ok () run =>
      ⟨.ok (), run.sink.writes.toList, run.notices.toList, { engine with cache := run.cache },
        run.host⟩
    | .error error run =>
      ⟨.error (target.error run.sink error), run.sink.writes.toList, run.notices.toList,
        { engine with cache := run.cache }, run.host⟩

end Engine

end Stencil
