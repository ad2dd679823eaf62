import Stencil.Proofs.Render.Congruence

/-!
# Renders as steps

A render is put together from a few steps. What each step has, and what passes from parts to the
whole wherever steps are put together, every render has.

1. `Eval.Closed`: such a property of steps.
2. `Eval.Congruence.renderBlocks`: rendering has the property, at every depth, where something may
   be known of all data.
3. `Eval.Closed.renderBlocks`, `Eval.Closed.resolve`: rendering has the property, and so has finding
   a value.
-/

namespace Stencil

variable {σ : Type}

/-- A property that the single steps have and that passes to what is put together from them. -/
structure Eval.Closed (P : {α : Type} → Eval σ α → Prop) : Prop where
  pure : ∀ {α : Type} (result : α), P (Pure.pure result)
  bind : ∀ {α β : Type} {step : Eval σ α} {next : α → Eval σ β}, P step →
    (∀ result, P (next result)) → P (step >>= next)
  emit : ∀ origin text, P (Eval.emit origin text)
  note : ∀ name path, P (Eval.note (.climbsAboveRoot name path))
  raise : ∀ {α : Type} (limit : Nat), P (Eval.raise (.maxDepth limit) : Eval σ α)
  call : ∀ compute, P (Eval.call compute)
  locate : ∀ {α : Type} source span {step : Eval σ α}, P step → P (Eval.locate source span step)
  capture : ∀ {step : Eval σ Unit}, P step → P (Eval.capture step)
  fragment : ∀ text, P (Eval.fragment text)
  forEachPulled : ∀ {step : Value σ → Eval σ Unit} (pull : σ → Pull σ), (∀ item, P (step item)) →
    P fun run => Eval.forEachPulled step (pull run.host) run

/-- Such a property is a relation in which only the first step counts, with nothing known of the
data. -/
theorem Eval.Closed.congruence {P : {α : Type} → Eval σ α → Prop} (closed : Eval.Closed P) :
    Eval.Congruence (fun _ => True) (fun step _ => P step) where
  null := trivial
  text := fun _ => trivial
  item := fun _ _ => trivial
  entry := fun _ _ => trivial
  pure := fun result _ => closed.pure result
  bind := fun first second => closed.bind first fun result => second result fun _ _ => trivial
  emit := closed.emit
  note := closed.note
  call := fun _ => closed.call _
  locate := fun source span _ _ h => closed.locate source span h
  capture := fun h => closed.capture h
  fragment := closed.fragment
  forEachPulled := fun _ each => closed.forEachPulled _ fun item => each item trivial

namespace Eval

variable {α β : Type} {step : Eval σ α} {run run' : Run σ}

theorem bind_of_ok {result : α} (h : step run = .ok result run') (next : α → Eval σ β) :
    (step >>= next) run = next result run' := by
  show EStateM.bind step next run = next result run'
  rw [EStateM.bind, h]

theorem bind_of_error {error : Error} (h : step run = .error error run')
    (next : α → Eval σ β) : (step >>= next) run = .error error run' := by
  show EStateM.bind step next run = .error error run'
  rw [EStateM.bind, h]

/-- What comes behind a step depends on how the step ends alone. -/
theorem bind_congr {step' : Eval σ α} (same : step run = step' run') (next : α → Eval σ β) :
    (step >>= next) run = (step' >>= next) run' := by
  show EStateM.bind step next run = EStateM.bind step' next run'
  rw [EStateM.bind, EStateM.bind, same]

/-- Two steps end well if both do. -/
theorem exists_of_bind_eq_ok {next : α → Eval σ β} {result : β}
    (done : (step >>= next) run = .ok result run') :
    ∃ between moment, step run = .ok between moment ∧ next between moment = .ok result run' := by
  cases ran : step run with
  | ok between moment =>
    rw [bind_of_ok ran] at done
    exact ⟨between, moment, rfl, done⟩
  | error error moment =>
    rw [bind_of_error ran] at done
    cases done

/-- The run as a step leaves it, whether or not the step fails. -/
def after (step : Eval σ α) (run : Run σ) : Run σ :=
  match step run with
  | .ok _ run' => run'
  | .error _ run' => run'

theorem after_of_ok {result : α} (h : step run = .ok result run') : after step run = run' := by
  rw [after, h]

theorem after_of_error {error : Error} (h : step run = .error error run') :
    after step run = run' := by
  rw [after, h]

theorem after_bind_of_ok {result : α} (h : step run = .ok result run') (next : α → Eval σ β) :
    after (step >>= next) run = after (next result) run' := by
  rw [after, bind_of_ok h, after]

theorem after_bind_of_error {error : Error} (h : step run = .error error run')
    (next : α → Eval σ β) : after (step >>= next) run = run' :=
  after_of_error (bind_of_error h next)

theorem after_locate (source : String) (span : Span) (step : Eval σ α) (run : Run σ) :
    after (locate source span step) run = after step run := by
  unfold after locate
  cases step run <;> rfl

theorem after_capture (step : Eval σ Unit) (run : Run σ) :
    after (capture step) run =
      { after step { run with sink := .unlimited } with sink := run.sink } := by
  unfold after capture
  cases step { run with sink := .unlimited } <;> rfl

theorem raise_bind (cause : Cause) (next : α → Eval σ β) :
    (raise cause >>= next) = raise cause := rfl

/-- Pulling the members of a collection one by one, in steps: the host hands out a member, the step
is done for it, and the host is asked for the next one. -/
theorem forEachPulled_member (step : Value σ → Eval σ Unit) (host : σ) (item : Value σ)
    (next : σ → Pull σ) :
    forEachPulled step (.member host item next) =
      (modify fun run => { run with host }) >>= fun _ => step item >>= fun _ =>
        get >>= fun run => forEachPulled step (next run.host) := by
  funext run
  rw [forEachPulled]
  show _ = (step item >>= fun _ => get >>= fun run => forEachPulled step (next run.host))
    { run with host }
  cases ran : step item { run with host } with
  | ok _ run' =>
    rw [bind_of_ok ran]
    simp only [ran]
    rfl
  | error error run' =>
    rw [bind_of_error ran]
    simp only [ran]

end Eval

/-! ## Properties of rendering -/

section

variable {V : Value σ → Prop} {P : {α : Type} → [Carries σ α] → Eval σ α → Prop}

/-- Whatever is done with the next level down has a property, if all rendering there has it. -/
theorem Level.related_of_below {level : Level σ}
    (raise : ∀ {α : Type} [Carries σ α],
      P (Eval.raise (.maxDepth level.setting.maxDepth) : Eval σ α))
    (registered : ∀ name value, level.setting.data.find? name = some value → V value)
    (below : ∀ body ∈ level.below, ∀ place blocks, place.context.All V → P (body place blocks)) :
    Related V (fun step _ => P step) level level where
  templates := rfl
  data := rfl
  registered := registered
  descend := by
    intro α _ next next' after
    unfold descend
    cases reached : level.below with
    | some body =>
      rw [pure_bind]
      exact after body body (below body reached)
    | none =>
      rw [Eval.raise_bind]
      exact raise

/-- What a render does has a property that passes from steps to what is put together from them, if
to end at the limit on depth has it. -/
theorem Eval.Congruence.renderBlocks (congruence : Eval.Congruence V fun step _ => P step)
    {setting : Setting σ}
    (raise : ∀ {α : Type} [Carries σ α], P (Eval.raise (.maxDepth setting.maxDepth) : Eval σ α))
    (registered : ∀ name value, setting.data.find? name = some value → V value) (depth : Nat)
    {place : Place σ} (known : place.context.All V) (blocks : List Block) :
    P (renderBlocks setting depth place blocks) := by
  induction depth generalizing place blocks with
  | zero =>
    refine (Level.related_of_below raise registered ?_).renderBlocks congruence known blocks
    intro body reached
    cases reached
  | succ depth ih =>
    refine (Level.related_of_below raise registered ?_).renderBlocks congruence known blocks
    intro body reached
    cases reached
    exact fun _ blocks known => ih known blocks

end

namespace Eval.Closed

variable {P : {α : Type} → Eval σ α → Prop} (closed : Eval.Closed P)
include closed

/-- Every render has the property, at every depth. -/
theorem renderBlocks (setting : Setting σ) (depth : Nat) (place : Place σ) (blocks : List Block) :
    P (renderBlocks setting depth place blocks) :=
  closed.congruence.renderBlocks (P := fun step => P step) (closed.raise _) (fun _ _ _ => trivial)
    depth ⟨trivial, trivial⟩ blocks

/-- So has whatever is done at a level. -/
theorem related (setting : Setting σ) (depth : Nat) :
    Level.Related (fun _ : Value σ => True) (fun step _ => P step) (Level.ofDepth setting depth)
      (Level.ofDepth setting depth) := by
  have below : ∀ body ∈ (Level.ofDepth setting depth).below, ∀ place blocks,
      P (body place blocks) := by
    intro body reached
    cases depth with
    | zero => cases reached
    | succ depth =>
      cases reached
      exact closed.renderBlocks setting depth
  exact Level.related_of_below (P := fun step => P step) (closed.raise _)
    (fun _ _ _ => trivial) fun body reached place blocks _ => below body reached place blocks

theorem block (setting : Setting σ) (depth : Nat) (place : Place σ) (block : Block) :
    P ((Level.ofDepth setting depth).block place block) :=
  (closed.related setting depth).block closed.congruence ⟨trivial, trivial⟩ block

/-- Every way to find a value has the property. -/
theorem agree (setting : Setting σ) (depth : Nat) :
    Level.Agree (fun _ : Value σ => True) (fun step _ => P step) (Level.ofDepth setting depth)
      (Level.ofDepth setting depth) :=
  (closed.related setting depth).agree closed.congruence

theorem forM {α : Type} {step : α → Eval σ Unit} (each : ∀ item, P (step item)) (items : List α) :
    P (items.forM step) := by
  induction items with
  | nil => exact closed.pure ()
  | cons item items ih => exact closed.bind (each item) fun _ => ih

theorem forEachMember {step : Value σ → Eval σ Unit} (each : ∀ item, P (step item))
    (value : Value σ) : P (Eval.forEachMember value step) := by
  cases value with
  | list items => exact closed.forM each items
  | map entries => exact closed.forM (fun entry => each entry.2) entries
  | collection id kind pull => exact closed.forEachPulled pull each
  | _ => exact each _

/-- Whatever is done with the next level down has the property, if it does for all rendering
there. -/
theorem descend {α : Type} (setting : Setting σ) (depth : Nat) {next : Body σ → Eval σ α}
    (below : ∀ depth, P (next (Stencil.renderBlocks setting depth))) :
    P ((Level.ofDepth setting depth).descend >>= next) := by
  cases depth with
  | zero => exact closed.raise setting.maxDepth
  | succ depth => exact below depth

theorem settle (value : Value σ) : P (Level.settle value) :=
  closed.congruence.toSequential.settle trivial

theorem renderPrivately (setting : Setting σ) (depth : Nat) (program : Program)
    (context : Context σ) : P ((Level.ofDepth setting depth).renderPrivately program context) :=
  closed.descend setting depth fun depth =>
    closed.capture (closed.renderBlocks setting depth _ program.blocks)

theorem drill (setting : Setting σ) (depth : Nat) (owner : Context σ) (segments : List String) :
    P ((Level.ofDepth setting depth).drill owner segments) :=
  (closed.agree setting depth).drill closed.congruence.toSequential ⟨trivial, trivial⟩ segments

theorem drillData (setting : Setting σ) (depth : Nat) (root : Value σ) (segments : List String) :
    P ((Level.ofDepth setting depth).drillData root segments) :=
  (closed.agree setting depth).drillData closed.congruence.toSequential trivial segments

theorem resolve (setting : Setting σ) (depth : Nat) (context : Context σ) (text : String) :
    P ((Level.ofDepth setting depth).resolve context text) :=
  (closed.agree setting depth).resolve closed.congruence.toSequential ⟨trivial, trivial⟩ text

theorem holds (setting : Setting σ) (depth : Nat) (context : Context σ) (recursive : Bool)
    (value : Value σ) : P ((Level.ofDepth setting depth).holds context recursive value) :=
  (closed.related setting depth).holds closed.congruence ⟨trivial, trivial⟩ recursive value

end Eval.Closed

end Stencil
