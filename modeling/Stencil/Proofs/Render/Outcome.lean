import Stencil.Proofs.Render.Steps

/-!
# The two parts of a render

A render first prepares the data of its job, and then runs the blocks. `Engine.render_of_error`
and `Engine.render_of_ok` say what becomes of it in either case.
-/

namespace Stencil

variable {σ : Type}

/-- The data of a job, evaluated if the job says so. -/
def Job.prepared (job : Job σ) (host : σ) : EStateM.Result Error σ (Value σ) :=
  if job.evaluated then job.data.evaluate host else .ok job.data host

def Job.start (job : Job σ) (data : Value σ) : Context σ :=
  job.context.getD (.atRoot data)

def Outcome.ReachedLimit (outcome : Outcome σ) : Prop :=
  ∃ error, outcome.result = .error error ∧ error.cause.isMaxDepth = true

/-- Where no write was refused, the error of a run is the error of its render. -/
theorem Target.error_of_accepted (target : Target) {sink : Sink} (accepted : sink.refusal = none)
    (error : Error) : target.error sink error = error := by
  cases target with
  | text => rfl
  | writer room => rw [Target.error, accepted, Option.map_none, Option.getD_none]

namespace Engine

/-- The run at the start of a render: nothing is written or noted, and the cache is that of the
engine. -/
def begin (engine : Engine σ) (target : Target) (host : σ) : Run σ :=
  ⟨host, engine.cache, #[], target.sink⟩

def outcome (engine : Engine σ) (target : Target) : EStateM.Result Error (Run σ) Unit → Outcome σ
  | .ok () run =>
    ⟨.ok (), run.sink.writes.toList, run.notices.toList, { engine with cache := run.cache },
      run.host⟩
  | .error error run =>
    ⟨.error (target.error run.sink error), run.sink.writes.toList, run.notices.toList,
      { engine with cache := run.cache }, run.host⟩

/-- What a render wrote is what the run left in the output. -/
theorem writes_outcome (engine : Engine σ) (target : Target) (step : Eval σ Unit) (run : Run σ) :
    (engine.outcome target (step run)).writes = (Eval.after step run).sink.writes.toList := by
  unfold Eval.after
  cases step run <;> rfl

theorem notices_outcome (engine : Engine σ) (target : Target) (step : Eval σ Unit) (run : Run σ) :
    (engine.outcome target (step run)).notices = (Eval.after step run).notices.toList := by
  unfold Eval.after
  cases step run <;> rfl

theorem render_of_error (engine : Engine σ) {job : Job σ} (target : Target) {host host' : σ}
    {error : Error} (failed : job.prepared host = .error error host') :
    engine.render job target host = ⟨.error error, [], [], engine, host'⟩ := by
  unfold Job.prepared at failed
  unfold render
  simp only [failed]

theorem render_of_ok (engine : Engine σ) {job : Job σ} (target : Target) {host host' : σ}
    {data : Value σ} (ready : job.prepared host = .ok data host') :
    engine.render job target host =
      engine.outcome target (engine.run job (job.start data) (engine.begin target host')) := by
  unfold Job.prepared at ready
  unfold render
  simp only [ready]
  unfold Job.start begin
  split <;> next ended => rw [ended, outcome]

/-- A render changes nothing of its engine but the cache. -/
theorem render_engine (engine : Engine σ) (job : Job σ) (target : Target) (host : σ) :
    ∃ cache, (engine.render job target host).engine = { engine with cache } := by
  cases ready : job.prepared host with
  | error error host' => exact ⟨engine.cache, by rw [engine.render_of_error target ready]⟩
  | ok data host' =>
    rw [engine.render_of_ok target ready]
    cases engine.run job (job.start data) (engine.begin target host') with
    | ok _ run => exact ⟨run.cache, rfl⟩
    | error error run => exact ⟨run.cache, rfl⟩

end Engine

end Stencil
