import Stencil.Proofs.Render.Event

/-!
# Steps that fail

That a step ends with some error is an event: of two steps, the first one raises the error, or the
second one does where the first one ends. Nothing is raised by steps that make a notice or compile
a fragment, or that write to an output which takes everything.

1. `Eval.Raises`: a step ends with an error.
2. `Eval.keepsRoom_closed`: an output that takes everything goes on to do so.
3. `Eval.raises_event`: to raise an error is an event.
-/

namespace Stencil

variable {σ : Type}

namespace Eval

variable {α β : Type} {step : Eval σ α} {run : Run σ} {error : Error}

def Raises (step : Eval σ α) (run : Run σ) (error : Error) : Prop :=
  ∃ moment, step run = .error error moment

theorem not_raises_of_ok {result : α} {moment : Run σ} (done : step run = .ok result moment) :
    ¬ Raises step run error := by
  rintro ⟨_, failed⟩
  rw [done] at failed
  cases failed

theorem not_raises_emit (origin : Origin) (text : String) (unlimited : run.sink.room = none) :
    ¬ Raises (emit origin text : Eval σ Unit) run error :=
  not_raises_of_ok (emit_of_unlimited origin text unlimited)

theorem raises_raise_iff (cause : Cause) :
    Raises (raise cause : Eval σ α) run error ↔ error = .ofCause cause := by
  constructor
  · rintro ⟨moment, ⟨⟩⟩
    rfl
  · rintro rfl
    exact ⟨run, rfl⟩

theorem raises_call_iff (compute : σ → Reply σ) :
    Raises (call compute) run error ↔ ∃ host, compute run.host = .failure host error := by
  unfold Raises call
  cases compute run.host with
  | value host result => simp
  | failure host error' => simp

/-- A step raises what its first part raises, or what the second part raises behind the first. -/
theorem raises_bind_iff {next : α → Eval σ β} :
    Raises (step >>= next) run error ↔ Raises step run error ∨
      ∃ result between, step run = .ok result between ∧ Raises (next result) between error := by
  cases ran : step run with
  | ok result between =>
    rw [Raises, bind_of_ok ran, or_iff_right (not_raises_of_ok ran)]
    constructor
    · exact fun raised => ⟨result, between, rfl, raised⟩
    · rintro ⟨_, _, ⟨⟩, raised⟩
      exact raised
  | error error moment =>
    rw [Raises, Raises, bind_of_error ran, ran]
    simp

theorem raises_locate_iff (source : String) (span : Span) :
    Raises (locate source span step) run error ↔
      ∃ arisen, Raises step run arisen ∧ error = arisen.locate source span := by
  unfold Raises locate
  cases step run with
  | ok result moment => simp
  | error error moment => simp [eq_comm]

theorem raises_capture_iff {step : Eval σ Unit} :
    Raises (capture step) run error ↔ Raises step (run.withSink .unlimited) error := by
  show _ ↔ Raises step { run with sink := .unlimited } error
  unfold Raises capture
  cases step { run with sink := .unlimited } <;> simp

theorem not_raises_fragment (text : String) :
    ¬ Raises (fragment text : Eval σ Program) run error := by
  unfold Raises fragment
  cases run.cache.find? text <;> simp

theorem raises_member_iff {step : Value σ → Eval σ Unit} (host : σ) (item : Value σ)
    (next : σ → Pull σ) :
    Raises (forEachPulled step (.member host item next)) run error ↔
      Raises (step item) { run with host } error ∨ ∃ between, step item { run with host } =
        .ok () between ∧ Raises (forEachPulled step (next between.host)) between error := by
  rw [forEachPulled_member]
  show Raises (step item >>= fun _ => get >>= fun run => forEachPulled step (next run.host))
    { run with host } error ↔ _
  rw [raises_bind_iff]
  exact or_congr Iff.rfl ⟨fun ⟨_, between, later⟩ => ⟨between, later⟩, fun ⟨between, later⟩ =>
    ⟨(), between, later⟩⟩

/-! ## Output -/

/-- A step that leaves an output which takes everything like that. -/
def KeepsRoom (step : Eval σ α) : Prop :=
  ∀ run, run.sink.room = none → (after step run).sink.room = none

theorem Quiet.keepsRoom (quiet : Quiet step) : KeepsRoom step :=
  fun run unlimited => by rw [quiet.sink_after, unlimited]

theorem keepsRoom_bind {next : α → Eval σ β} (first : KeepsRoom step)
    (second : ∀ result, KeepsRoom (next result)) : KeepsRoom (step >>= next) := by
  intro run unlimited
  have kept := first run unlimited
  cases ran : step run with
  | ok result between =>
    rw [after_of_ok ran] at kept
    rw [after_bind_of_ok ran]
    exact second result between kept
  | error error moment =>
    rw [after_of_error ran] at kept
    rwa [after_bind_of_error ran]

theorem keepsRoom_emit (origin : Origin) (text : String) :
    KeepsRoom (emit origin text : Eval σ Unit) := by
  intro run unlimited
  rw [after_of_ok (emit_of_unlimited origin text unlimited)]
  exact unlimited

theorem keepsRoom_forEachPulled {step : Value σ → Eval σ Unit}
    (each : ∀ item, KeepsRoom (step item)) : (pull : Pull σ) → KeepsRoom (forEachPulled step pull)
  | .done host => Quiet.keepsRoom fun _ _ => rfl
  | .failure host error => Quiet.keepsRoom fun _ _ => rfl
  | .member host item next => by
    rw [forEachPulled_member]
    refine keepsRoom_bind (Quiet.keepsRoom fun _ _ => rfl) fun _ => ?_
    refine keepsRoom_bind (each item) fun _ run => ?_
    exact keepsRoom_forEachPulled each (next run.host) run

/-- An output that takes everything goes on to do so, whatever is done. -/
theorem keepsRoom_closed : Eval.Closed (fun {α} (step : Eval σ α) => KeepsRoom step) where
  pure := fun _ => Quiet.keepsRoom fun _ _ => rfl
  bind := keepsRoom_bind
  emit := keepsRoom_emit
  note := fun _ _ => Quiet.keepsRoom fun _ _ => rfl
  raise := fun _ => Quiet.keepsRoom fun _ _ => rfl
  call := fun compute => (quiet_call compute).keepsRoom
  locate := fun source span _ kept run unlimited => by
    rw [after_locate]
    exact kept run unlimited
  capture := fun _ => (quiet_capture _).keepsRoom
  fragment := fun text => (quiet_fragment text).keepsRoom
  forEachPulled := fun pull each run => keepsRoom_forEachPulled each (pull run.host) run

/-! ## Raising as an event -/

theorem keepsRoom_invariant : Invariant (fun {α} (step : Eval σ α) => KeepsRoom step)
    fun run => run.sink.room = none where
  closed := keepsRoom_closed
  kept := by
    intro α step run moment result keeps unlimited done
    rw [← after_of_ok done]
    exact keeps run unlimited
  hosted := fun _ unlimited => unlimited
  unlimited := fun _ => rfl

/-- To raise an error is an event, in runs with an output that takes everything. -/
theorem raises_event (error : Error) :
    Event (fun {α} (step : Eval σ α) => KeepsRoom step) (fun run => run.sink.room = none)
      (error = ·) (fun _ => False) fun step run => Raises step run error where
  toInvariant := keepsRoom_invariant
  pure := fun _ _ => not_raises_of_ok rfl
  emit := fun origin text unlimited => not_raises_emit origin text unlimited
  note := fun _ _ _ => not_raises_of_ok rfl
  raise := fun limit _ => raises_raise_iff (.maxDepth limit)
  call := fun compute _ => (raises_call_iff compute).trans (by simp)
  fragment := fun text _ => iff_of_false (not_raises_fragment text) not_false
  bind := fun _ _ _ => raises_bind_iff
  capture := fun _ _ => raises_capture_iff
  pulls := fun _ _ _ => Iff.rfl
  done := fun _ _ _ => not_raises_of_ok rfl
  failure := fun _ host failed run => by simp [Raises, forEachPulled, eq_comm]
  member := fun host item next _ _ => raises_member_iff host item next

end Eval

/-- A render to a text fails only with an error that was raised. -/
theorem Engine.text_eq_error_iff (engine : Engine σ) {job : Job σ} {host host' : σ}
    {data : Value σ} (ready : job.prepared host = .ok data host') {error : Error} :
    (engine.render job .text host).text = .error error ↔
      Eval.Raises (engine.run job (job.start data)) (engine.begin .text host') error := by
  rw [engine.render_of_ok .text ready]
  unfold Eval.Raises
  cases engine.run job (job.start data) (engine.begin .text host') with
  | ok result run => exact iff_of_false nofun nofun
  | error arisen run =>
    show Except.error arisen = Except.error error ↔ _
    simp

end Stencil
