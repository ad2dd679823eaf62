import Stencil.Proofs.Outline.Notices
import Stencil.Proofs.Render.Steps

/-!
# The cache of fragments

A cached fragment is the template of its text, so a run goes the same way whatever is cached.

1. `Run.LookedUp`: what looking up some texts leaves in a cache and in the notices.
2. `Eval.transparent_closed`: single steps go the same way with any two caches, and whatever is
   put together from them does, too, so a render does.
-/

namespace Stencil

/-- A cache that holds the templates of texts under these texts. -/
def Table.Compiled (cache : Table Program) : Prop :=
  ∀ text program, cache.find? text = some program → program = (Program.compile text).value

variable {σ α β : Type}

namespace Run

/-- Two runs that differ in nothing but the cache and the notices. -/
structure Alike (run other : Run σ) : Prop where
  host : run.host = other.host
  sink : run.sink = other.sink
  compiled : run.cache.Compiled
  other_compiled : other.cache.Compiled

theorem Alike.refl {run : Run σ} (compiled : run.cache.Compiled) : run.Alike run :=
  ⟨rfl, rfl, compiled, compiled⟩

theorem Alike.trans {run between other : Run σ} (first : run.Alike between)
    (second : between.Alike other) : run.Alike other :=
  ⟨first.host.trans second.host, first.sink.trans second.sink, first.compiled,
    second.other_compiled⟩

/-- One run comes after another one, and meanwhile some texts were looked up. The templates of the
texts are in the cache then, and those that were not there before are noted. -/
structure LookedUp (texts : List String) (before after : Run σ) : Prop where
  cached : ∀ text, after.cache.find? text =
    if text ∈ texts then some (Program.compile text).value else before.cache.find? text
  noted : ∀ text, Notice.compilingFragment text ∈ after.notices ↔
    Notice.compilingFragment text ∈ before.notices ∨
      text ∈ texts ∧ before.cache.find? text = none

namespace LookedUp

variable {texts more : List String} {before between after : Run σ}

theorem refl (run : Run σ) : LookedUp [] run run :=
  ⟨fun _ => by simp, fun _ => by simp⟩

theorem trans (first : LookedUp texts before between) (second : LookedUp more between after) :
    LookedUp (texts ++ more) before after := by
  constructor
  · intro text
    rw [second.cached, first.cached]
    simp only [List.mem_append]
    by_cases early : text ∈ texts <;> by_cases late : text ∈ more <;> simp [early, late]
  · intro text
    rw [second.noted, first.noted, first.cached]
    simp only [List.mem_append]
    by_cases early : text ∈ texts <;> simp [early]

/-- Nothing but templates of texts comes into the cache. -/
theorem compiled (lookedUp : LookedUp texts before after) (compiled : before.cache.Compiled) :
    after.cache.Compiled := by
  intro text program found
  rw [lookedUp.cached] at found
  split at found
  · cases found
    rfl
  · exact compiled text program found

/-- Only the cache and the notices matter. -/
theorem congr {before' after' : Run σ} (lookedUp : LookedUp texts before after)
    (cache : before'.cache = before.cache) (notices : before'.notices = before.notices)
    (cache' : after'.cache = after.cache) (notices' : after'.notices = after.notices) :
    LookedUp texts before' after' := by
  constructor
  · rw [cache, cache']
    exact lookedUp.cached
  · rw [cache, notices, notices']
    exact lookedUp.noted

end LookedUp

end Run

namespace Eval

/-- Two runs end in the same way, and the same texts were looked up. -/
inductive SameEnd (texts : List String) (run other : Run σ) :
    EStateM.Result Error (Run σ) α → EStateM.Result Error (Run σ) α → Prop where
  | ok {result : α} {run' other' : Run σ} (alike : run'.Alike other')
      (lookedUp : run.LookedUp texts run') (other_lookedUp : other.LookedUp texts other') :
      SameEnd texts run other (.ok result run') (.ok result other')
  | error {error : Error} {run' other' : Run σ} (alike : run'.Alike other')
      (lookedUp : run.LookedUp texts run') (other_lookedUp : other.LookedUp texts other') :
      SameEnd texts run other (.error error run') (.error error other')

/-- A step that goes the same way whatever is cached. -/
def Transparent (step : Eval σ α) : Prop :=
  ∀ run other : Run σ, run.Alike other → ∃ texts, SameEnd texts run other (step run) (step other)

/-- Such a step leaves a cache of compiled texts. -/
theorem Transparent.compiled {step : Eval σ α} (transparent : Transparent step) {run : Run σ}
    (compiled : run.cache.Compiled) : (after step run).cache.Compiled := by
  obtain ⟨texts, same⟩ := transparent run run (.refl compiled)
  unfold after
  generalize step run = ended at same
  cases same with
  | ok alike => exact alike.compiled
  | error alike => exact alike.compiled

/-- Where such a step ends with a result, it leaves a cache of compiled texts, too. -/
theorem Transparent.compiled_of_ok {step : Eval σ α} (transparent : Transparent step)
    {run moment : Run σ} {result : α} (compiled : run.cache.Compiled)
    (done : step run = .ok result moment) : moment.cache.Compiled := by
  have left := transparent.compiled compiled
  rwa [after_of_ok done] at left

namespace SameEnd

variable {texts more : List String} {run other between between' : Run σ}

theorem trans {result result' : EStateM.Result Error (Run σ) α}
    (lookedUp : run.LookedUp texts between) (other_lookedUp : other.LookedUp texts between')
    (later : SameEnd more between between' result result') :
    SameEnd (texts ++ more) run other result result' := by
  cases later with
  | ok alike now now' => exact .ok alike (lookedUp.trans now) (other_lookedUp.trans now')
  | error alike now now' => exact .error alike (lookedUp.trans now) (other_lookedUp.trans now')

end SameEnd

/-! ## Steps -/

theorem transparent_bind {step : Eval σ α} {next : α → Eval σ β} (first : Transparent step)
    (second : ∀ result, Transparent (next result)) : Transparent (step >>= next) := by
  intro run other alike
  obtain ⟨texts, same⟩ := first run other alike
  generalize ran : step run = result at same
  generalize other_ran : step other = result' at same
  cases same with
  | @ok result run' other' alike lookedUp other_lookedUp =>
    rw [bind_of_ok ran, bind_of_ok other_ran]
    obtain ⟨more, later⟩ := second result run' other' alike
    exact ⟨texts ++ more, later.trans lookedUp other_lookedUp⟩
  | error alike lookedUp other_lookedUp =>
    rw [bind_of_error ran, bind_of_error other_ran]
    exact ⟨texts, .error alike lookedUp other_lookedUp⟩

theorem transparent_emit (origin : Origin) (text : String) :
    Transparent (emit origin text : Eval σ Unit) := by
  rintro run other ⟨host, sink, compiled, other_compiled⟩
  refine ⟨[], ?_⟩
  unfold emit
  rw [sink]
  cases other.sink.put? ⟨origin, text⟩ with
  | some sink' =>
    exact .ok ⟨host, rfl, compiled, other_compiled⟩ ((Run.LookedUp.refl run).congr rfl rfl rfl rfl)
      ((Run.LookedUp.refl other).congr rfl rfl rfl rfl)
  | none =>
    exact .error ⟨host, rfl, compiled, other_compiled⟩
      ((Run.LookedUp.refl run).congr rfl rfl rfl rfl)
      ((Run.LookedUp.refl other).congr rfl rfl rfl rfl)

theorem transparent_note {notice : Notice} (warning : notice.severity = .warn) :
    Transparent (note notice : Eval σ Unit) := by
  rintro run other ⟨host, sink, compiled, other_compiled⟩
  have noted : ∀ run : Run σ, run.LookedUp [] { run with notices := run.notices.push notice } := by
    intro run
    refine ⟨fun text => by simp, fun text => ?_⟩
    have differs : Notice.compilingFragment text ≠ notice := by
      rintro rfl
      cases warning
    simp [differs]
  exact ⟨[], .ok ⟨host, sink, compiled, other_compiled⟩ (noted run) (noted other)⟩

theorem transparent_call (compute : σ → Reply σ) : Transparent (call compute) := by
  rintro run other ⟨host, sink, compiled, other_compiled⟩
  refine ⟨[], ?_⟩
  unfold call
  rw [host]
  cases compute other.host with
  | value host' result =>
    exact .ok ⟨rfl, sink, compiled, other_compiled⟩ ((Run.LookedUp.refl run).congr rfl rfl rfl rfl)
      ((Run.LookedUp.refl other).congr rfl rfl rfl rfl)
  | failure host' error =>
    exact .error ⟨rfl, sink, compiled, other_compiled⟩
      ((Run.LookedUp.refl run).congr rfl rfl rfl rfl)
      ((Run.LookedUp.refl other).congr rfl rfl rfl rfl)

theorem transparent_locate (source : String) (span : Span) {step : Eval σ α}
    (h : Transparent step) : Transparent (locate source span step) := by
  intro run other alike
  obtain ⟨texts, same⟩ := h run other alike
  refine ⟨texts, ?_⟩
  unfold locate
  generalize step run = result, step other = result' at same
  cases same with
  | ok alike lookedUp other_lookedUp => exact .ok alike lookedUp other_lookedUp
  | error alike lookedUp other_lookedUp => exact .error alike lookedUp other_lookedUp

theorem transparent_capture {step : Eval σ Unit} (h : Transparent step) :
    Transparent (capture step) := by
  rintro run other ⟨host, sink, compiled, other_compiled⟩
  obtain ⟨texts, same⟩ := h { run with sink := .unlimited } { other with sink := .unlimited }
    ⟨host, rfl, compiled, other_compiled⟩
  refine ⟨texts, ?_⟩
  unfold capture
  generalize step { run with sink := .unlimited } = result,
    step { other with sink := .unlimited } = result' at same
  cases same with
  | ok alike lookedUp other_lookedUp =>
    dsimp only
    rw [alike.sink]
    exact .ok ⟨alike.host, sink, alike.compiled, alike.other_compiled⟩
      (lookedUp.congr rfl rfl rfl rfl) (other_lookedUp.congr rfl rfl rfl rfl)
  | error alike lookedUp other_lookedUp =>
    exact .error ⟨alike.host, sink, alike.compiled, alike.other_compiled⟩
      (lookedUp.congr rfl rfl rfl rfl) (other_lookedUp.congr rfl rfl rfl rfl)

/-- A text that is looked up gives its template, and only that text is cached and noted. -/
theorem fragment_eq_ok (text : String) {run : Run σ} (compiled : run.cache.Compiled) :
    ∃ after, fragment text run = .ok (Program.compile text).value after ∧
      after.host = run.host ∧ after.sink = run.sink ∧ run.LookedUp [text] after := by
  unfold fragment
  cases found : run.cache.find? text with
  | some program =>
    obtain rfl := compiled text program found
    refine ⟨run, rfl, rfl, rfl, fun other => ?_, fun other => ?_⟩
    · by_cases same : other = text <;> simp [same, found]
    · by_cases same : other = text <;> simp [same, found]
  | none =>
    refine ⟨_, rfl, rfl, rfl, fun other => ?_, fun other => ?_⟩
    · by_cases same : other = text <;> simp [same]
    · have warned : Notice.compilingFragment other ∉ (Program.compile text).notices := by
        intro mem
        cases Program.severity_of_mem_compile mem
      by_cases same : other = text <;> simp [same, found, warned]

theorem transparent_fragment (text : String) : Transparent (fragment text : Eval σ Program) := by
  rintro run other ⟨host, sink, compiled, other_compiled⟩
  obtain ⟨after, gives, same_host, same_sink, lookedUp⟩ := fragment_eq_ok text compiled
  obtain ⟨after', gives', same_host', same_sink', lookedUp'⟩ := fragment_eq_ok text other_compiled
  refine ⟨[text], ?_⟩
  rw [gives, gives']
  refine .ok ⟨?_, ?_, lookedUp.compiled compiled, lookedUp'.compiled other_compiled⟩ lookedUp
    lookedUp'
  · rw [same_host, same_host', host]
  · rw [same_sink, same_sink', sink]

theorem transparent_forEachPulled {step : Value σ → Eval σ Unit}
    (each : ∀ item, Transparent (step item)) :
    (pull : Pull σ) → Transparent (forEachPulled step pull)
  | .done host' => by
    rintro run other ⟨host, sink, compiled, other_compiled⟩
    exact ⟨[], .ok ⟨rfl, sink, compiled, other_compiled⟩
      ((Run.LookedUp.refl run).congr rfl rfl rfl rfl)
      ((Run.LookedUp.refl other).congr rfl rfl rfl rfl)⟩
  | .failure host' error => by
    rintro run other ⟨host, sink, compiled, other_compiled⟩
    exact ⟨[], .error ⟨rfl, sink, compiled, other_compiled⟩
      ((Run.LookedUp.refl run).congr rfl rfl rfl rfl)
      ((Run.LookedUp.refl other).congr rfl rfl rfl rfl)⟩
  | .member host' item next => by
    rintro run other ⟨host, sink, compiled, other_compiled⟩
    obtain ⟨texts, same⟩ := each item { run with host := host' } { other with host := host' }
      ⟨rfl, sink, compiled, other_compiled⟩
    simp only [forEachPulled]
    generalize step item { run with host := host' } = result,
      step item { other with host := host' } = result' at same
    cases same with
    | @ok _ run' other' alike lookedUp other_lookedUp =>
      obtain ⟨more, later⟩ :=
        transparent_forEachPulled each (next other'.host) run' other' alike
      refine ⟨texts ++ more, ?_⟩
      dsimp only
      rw [alike.host]
      exact later.trans (lookedUp.congr rfl rfl rfl rfl) (other_lookedUp.congr rfl rfl rfl rfl)
    | error alike lookedUp other_lookedUp =>
      exact ⟨texts, .error alike (lookedUp.congr rfl rfl rfl rfl)
        (other_lookedUp.congr rfl rfl rfl rfl)⟩

/-- What is put together from transparent steps is transparent. -/
theorem transparent_closed : Eval.Closed (fun {α} (step : Eval σ α) => Transparent step) where
  pure := fun result run other alike => ⟨[], .ok alike (.refl run) (.refl other)⟩
  bind := transparent_bind
  emit := transparent_emit
  note := fun _ _ => transparent_note rfl
  raise := fun _ run other alike => ⟨[], .error alike (.refl run) (.refl other)⟩
  call := transparent_call
  locate := transparent_locate
  capture := transparent_capture
  fragment := transparent_fragment
  forEachPulled := by
    intro step pull each run other alike
    dsimp only
    rw [alike.host]
    exact transparent_forEachPulled each (pull other.host) run other alike

end Eval

end Stencil
