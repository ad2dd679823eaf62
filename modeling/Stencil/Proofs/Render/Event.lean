import Stencil.Proofs.Render.Limited

/-!
# What happens in a render

Something may happen while a step is done: an error arises, or the template of a text is looked up.
It happens in a step that is put together from others if it happens in one of them, and in the end
only where the host or the limit on depth ends the run, or where a text is looked up.

1. `Eval.Invariant`: what is known of all moments of a run.
2. `Eval.Event`: such an event, told from the single steps.
3. `Eval.Event.forEachMember_iff`: an event while the members of a value are gone through.
-/

namespace Stencil

variable {σ : Type}

namespace Eval

/-- What all steps of a render have keeps what is known of the moments of a run. -/
structure Invariant (P : {α : Type} → Eval σ α → Prop) (Q : Run σ → Prop) : Prop where
  closed : Eval.Closed P
  kept : ∀ {α : Type} {step : Eval σ α} {run moment : Run σ} {result : α}, P step → Q run →
    step run = .ok result moment → Q moment
  hosted : ∀ {run : Run σ} (host : σ), Q run → Q { run with host }
  unlimited : ∀ {run : Run σ}, Q run → Q (run.withSink .unlimited)

/-- Something that may happen in a step which starts from a run. It happens where an error of
`onError` arises, or where a text of `onText` is looked up, and in steps put together from others
where it happens in one of them. -/
structure Event (P : {α : Type} → Eval σ α → Prop) (Q : Run σ → Prop) (onError : Error → Prop)
    (onText : String → Prop) (Happens : {α : Type} → Eval σ α → Run σ → Prop) : Prop
    extends Eval.Invariant P Q where
  pure : ∀ {α : Type} (result : α) (run : Run σ), ¬ Happens (Pure.pure result : Eval σ α) run
  emit : ∀ {run : Run σ} origin text, Q run → ¬ Happens (Eval.emit origin text) run
  note : ∀ name path (run : Run σ), ¬ Happens (Eval.note (.climbsAboveRoot name path)) run
  raise : ∀ {α : Type} (limit : Nat) (run : Run σ),
    Happens (Eval.raise (.maxDepth limit) : Eval σ α) run ↔ onError (.ofCause (.maxDepth limit))
  call : ∀ compute (run : Run σ), Happens (Eval.call compute) run ↔
    ∃ host error, compute run.host = .failure host error ∧ onError error
  fragment : ∀ {run : Run σ} text, Q run → (Happens (Eval.fragment text) run ↔ onText text)
  bind : ∀ {α β : Type} {step : Eval σ α} {next : α → Eval σ β} {run : Run σ}, P step →
    (∀ result, P (next result)) → Q run →
    (Happens (step >>= next) run ↔ Happens step run ∨
      ∃ result between, step run = .ok result between ∧ Happens (next result) between)
  capture : ∀ {step : Eval σ Unit} {run : Run σ}, P step → Q run →
    (Happens (Eval.capture step) run ↔ Happens step (run.withSink .unlimited))
  pulls : ∀ (step : Value σ → Eval σ Unit) (pull : σ → Pull σ) (run : Run σ),
    Happens (fun run => Eval.forEachPulled step (pull run.host) run) run ↔
      Happens (Eval.forEachPulled step (pull run.host)) run
  done : ∀ (step : Value σ → Eval σ Unit) host run,
    ¬ Happens (Eval.forEachPulled step (.done host)) run
  failure : ∀ (step : Value σ → Eval σ Unit) host error run,
    Happens (Eval.forEachPulled step (.failure host error)) run ↔ onError error
  member : ∀ {step : Value σ → Eval σ Unit} {run : Run σ} host item next, (∀ item, P (step item)) →
    Q run → (Happens (Eval.forEachPulled step (.member host item next)) run ↔
      Happens (step item) { run with host } ∨ ∃ between, step item { run with host } =
        .ok () between ∧ Happens (Eval.forEachPulled step (next between.host)) between)

namespace Invariant

variable {P : {α : Type} → Eval σ α → Prop} {Q : Run σ → Prop} (invariant : Invariant P Q)
  {run moment : Run σ}
include invariant

theorem of_comesTo {α : Type} {step : α → Eval σ Unit} (each : ∀ item, P (step item))
    {items : List α} {item : α} (comes : ComesTo step items run item moment) (known : Q run) :
    Q moment := by
  induction comes with
  | first => exact known
  | later done rest ih => exact ih (invariant.kept (each _) known done)

theorem of_pullsTo {step : Value σ → Eval σ Unit} (each : ∀ item, P (step item)) {pull : Pull σ}
    {item : Value σ} (comes : PullsTo step pull run item moment) (known : Q run) : Q moment := by
  induction comes with
  | first host => exact invariant.hosted host known
  | later done rest ih => exact ih (invariant.kept (each _) (invariant.hosted _ known) done)

theorem of_meetsMember {step : Value σ → Eval σ Unit} (each : ∀ item, P (step item))
    {value item : Value σ} (met : MeetsMember value step run item moment) (known : Q run) :
    Q moment := by
  cases value with
  | list items => exact invariant.of_comesTo each met known
  | map entries =>
    obtain ⟨name, comes⟩ := met
    have entered (entry : String × Value σ) : P (step entry.2) := each entry.2
    exact invariant.of_comesTo entered comes known
  | collection id kind pull => exact invariant.of_pullsTo each met known
  | _ =>
    obtain ⟨rfl, rfl⟩ := met
    exact known

end Invariant

/-- Doing a step for each member that a collection hands out comes to where the host fails instead
of handing out another one. -/
inductive PullFails (step : Value σ → Eval σ Unit) : Pull σ → Run σ → Error → Prop
  | now (host : σ) (error : Error) (run : Run σ) : PullFails step (.failure host error) run error
  | later {host : σ} {item : Value σ} {next : σ → Pull σ} {run run' : Run σ} {error : Error}
      (done : step item { run with host } = .ok () run')
      (rest : PullFails step (next run'.host) run' error) :
      PullFails step (.member host item next) run error

theorem exists_fragment_eq_ok (text : String) (run : Run σ) :
    ∃ program moment, (fragment text : Eval σ Program) run = .ok program moment := by
  unfold fragment
  cases run.cache.find? text with
  | some program => exact ⟨program, run, rfl⟩
  | none => exact ⟨_, _, rfl⟩

namespace Event

variable {P : {α : Type} → Eval σ α → Prop} {Q : Run σ → Prop} {onError : Error → Prop}
  {onText : String → Prop} {Happens : {α : Type} → Eval σ α → Run σ → Prop}
  (event : Event P Q onError onText Happens) {α β : Type} {run : Run σ}
include event

theorem map_iff {step : Eval σ α} (f : α → β) (step_known : P step) (known : Q run) :
    Happens (f <$> step) run ↔ Happens step run := by
  rw [map_eq_pure_bind, event.bind step_known (fun _ => event.closed.pure _) known, or_iff_left]
  rintro ⟨_, _, _, happens⟩
  exact event.pure _ _ happens

/-! ## Members -/

theorem forM_iff {step : α → Eval σ Unit} (each : ∀ item, P (step item)) {items : List α}
    (known : Q run) :
    Happens (items.forM step) run ↔
      ∃ item moment, ComesTo step items run item moment ∧ Happens (step item) moment := by
  induction items generalizing run with
  | nil =>
    refine iff_of_false (event.pure () run) ?_
    rintro ⟨_, _, comes, _⟩
    cases comes
  | cons item items ih =>
    show Happens (step item >>= fun _ => items.forM step) run ↔ _
    rw [event.bind (each item) (fun _ => event.closed.forM each items) known]
    constructor
    · rintro (happens | ⟨_, between, done, happens⟩)
      · exact ⟨item, run, .first item items run, happens⟩
      · obtain ⟨other, moment, comes, happens⟩ :=
          (ih (event.kept (each item) known done)).mp happens
        exact ⟨other, moment, .later done comes, happens⟩
    · rintro ⟨other, moment, comes, happens⟩
      cases comes with
      | first => exact .inl happens
      | later done rest =>
        refine .inr ⟨(), _, done, (ih (event.kept (each item) known done)).mpr ?_⟩
        exact ⟨other, moment, rest, happens⟩

theorem forEachPulled_iff {step : Value σ → Eval σ Unit} (each : ∀ item, P (step item)) :
    (pull : Pull σ) → {run : Run σ} → Q run → (Happens (forEachPulled step pull) run ↔
      (∃ item moment, PullsTo step pull run item moment ∧ Happens (step item) moment) ∨
        ∃ error, PullFails step pull run error ∧ onError error)
  | .done host, run, _ => by
    refine iff_of_false (event.done step host run) ?_
    rintro (⟨_, _, comes, _⟩ | ⟨_, fails, _⟩)
    · cases comes
    · cases fails
  | .failure host failed, run, _ => by
    rw [event.failure]
    constructor
    · exact fun happens => .inr ⟨failed, .now host failed run, happens⟩
    · rintro (⟨_, _, comes, _⟩ | ⟨_, fails, happens⟩)
      · cases comes
      · cases fails
        exact happens
  | .member host item next, run, known => by
    rw [event.member host item next each known]
    have left {between : Run σ} (done : step item { run with host } = .ok () between) :=
      forEachPulled_iff each (next between.host)
        (event.kept (each item) (event.hosted host known) done)
    constructor
    · rintro (happens | ⟨between, done, happens⟩)
      · exact .inl ⟨item, _, .first host item next run, happens⟩
      · rcases (left done).mp happens with ⟨other, moment, comes, happens⟩ | ⟨error, fails, happens⟩
        · exact .inl ⟨other, moment, .later done comes, happens⟩
        · exact .inr ⟨error, .later done fails, happens⟩
    · rintro (⟨other, moment, comes, happens⟩ | ⟨error, fails, happens⟩)
      · cases comes with
        | first => exact .inl happens
        | later done rest =>
          exact .inr ⟨_, done, (left done).mpr (.inl ⟨other, moment, rest, happens⟩)⟩
      · cases fails with
        | later done rest => exact .inr ⟨_, done, (left done).mpr (.inr ⟨error, rest, happens⟩)⟩

/-- While the members of a value are gone through, something happens at one of them, or where the
host hands them out. -/
theorem forEachMember_iff {step : Value σ → Eval σ Unit} (each : ∀ item, P (step item))
    {value : Value σ} (known : Q run) :
    Happens (forEachMember value step) run ↔
      (∃ item moment, MeetsMember value step run item moment ∧ Happens (step item) moment) ∨
        ∃ id kind pull error, value = .collection id kind pull ∧
          PullFails step (pull run.host) run error ∧ onError error := by
  have no_pull {A : Prop} {B : (σ → Pull σ) → Error → Prop}
      (other : ∀ id kind pull, value ≠ .collection id kind pull) :
      (A ∨ ∃ id kind pull error, value = .collection id kind pull ∧ B pull error) ↔ A := by
    refine or_iff_left ?_
    rintro ⟨id, kind, pull, error, same, _⟩
    exact other id kind pull same
  cases value with
  | list items =>
    rw [no_pull nofun]
    exact event.forM_iff each known
  | map entries =>
    rw [no_pull nofun]
    have entered : Happens (entries.forM fun entry => step entry.2) run ↔ _ :=
      event.forM_iff (fun _ => each _) known
    refine entered.trans ?_
    constructor
    · rintro ⟨⟨name, item⟩, moment, comes, happens⟩
      exact ⟨item, moment, ⟨name, comes⟩, happens⟩
    · rintro ⟨item, moment, ⟨name, comes⟩, happens⟩
      exact ⟨(name, item), moment, comes, happens⟩
  | collection id kind pull =>
    refine (event.pulls step pull run).trans ?_
    refine (event.forEachPulled_iff each (pull run.host) known).trans (or_congr Iff.rfl ?_)
    constructor
    · rintro ⟨error, fails, happens⟩
      exact ⟨id, kind, pull, error, rfl, fails, happens⟩
    · rintro ⟨_, _, _, error, ⟨⟩, fails, happens⟩
      exact ⟨error, fails, happens⟩
  | _ =>
    rw [no_pull nofun]
    constructor
    · exact fun happens => ⟨_, run, ⟨rfl, rfl⟩, happens⟩
    · rintro ⟨_, _, ⟨rfl, rfl⟩, happens⟩
      exact happens

end Event

end Eval

end Stencil
