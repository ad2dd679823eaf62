import Stencil.Proofs.Engine.Operations
import Stencil.Proofs.Render.Fetch

/-!
# Engines and their caches

1. `Engine.compiled_after`: whatever was done with an engine, its cache holds compiled texts.
2. `Engine.render_independent`: what a render gives does not depend on the cache, and so not on
   what was done with the engine before.
-/

namespace Stencil

variable {σ : Type}

/-- After a render some texts were looked up: their templates are in the cache, and those that the
engine did not have before are noted. -/
structure Outcome.LookedUp (texts : List String) (engine : Engine σ) (outcome : Outcome σ) :
    Prop where
  cached : ∀ text, outcome.engine.cache.find? text =
    if text ∈ texts then some (Program.compile text).value else engine.cache.find? text
  noted : ∀ text, Notice.compilingFragment text ∈ outcome.notices ↔
    text ∈ texts ∧ engine.cache.find? text = none

/-- Two renders end in the same way, except for notices and the cache. -/
structure Outcome.Alike (outcome other : Outcome σ) : Prop where
  result : outcome.result = other.result
  writes : outcome.writes = other.writes
  host : outcome.host = other.host

namespace Engine

theorem lookedUp_outcome {engine : Engine σ} {texts : List String} {target : Target} {host : σ}
    {run : Run σ} (lookedUp : (engine.begin target host).LookedUp texts run) :
    (∀ text, run.cache.find? text =
      if text ∈ texts then some (Program.compile text).value else engine.cache.find? text) ∧
    ∀ text, Notice.compilingFragment text ∈ run.notices.toList ↔
      text ∈ texts ∧ engine.cache.find? text = none := by
  refine ⟨lookedUp.cached, fun text => ?_⟩
  have noted := lookedUp.noted text
  simpa [begin] using noted

/-- Renders of engines that differ in their caches only end alike, and look up the same texts. -/
theorem render_alike {engine : Engine σ} (compiled : engine.cache.Compiled) {cache : Table Program}
    (other_compiled : cache.Compiled) (job : Job σ) (target : Target) (host : σ) :
    ∃ texts,
      (engine.render job target host).Alike ({ engine with cache }.render job target host) ∧
      (engine.render job target host).LookedUp texts engine ∧
      ({ engine with cache }.render job target host).LookedUp texts { engine with cache } := by
  let other : Engine σ := { engine with cache }
  show ∃ texts, (engine.render job target host).Alike (other.render job target host) ∧
    (engine.render job target host).LookedUp texts engine ∧
    (other.render job target host).LookedUp texts other
  cases ready : job.prepared host with
  | error error host' =>
    rw [engine.render_of_error target ready, other.render_of_error target ready]
    exact ⟨[], ⟨rfl, rfl, rfl⟩, ⟨by simp, by simp⟩, ⟨by simp, by simp⟩⟩
  | ok data host' =>
    rw [engine.render_of_ok target ready, other.render_of_ok target ready]
    have transparent : Eval.Transparent (engine.run job (job.start data)) :=
      Eval.transparent_closed.renderBlocks _ _ _ _
    obtain ⟨texts, same⟩ := transparent (engine.begin target host') (other.begin target host')
      ⟨rfl, rfl, compiled, other_compiled⟩
    refine ⟨texts, ?_⟩
    have same_run : other.run job (job.start data) = engine.run job (job.start data) := rfl
    rw [same_run]
    generalize engine.run job (job.start data) (engine.begin target host') = result,
      engine.run job (job.start data) (other.begin target host') = result' at same
    cases same with
    | @ok _ run run' alike lookedUp other_lookedUp =>
      obtain ⟨cached, noted⟩ := lookedUp_outcome lookedUp
      obtain ⟨other_cached, other_noted⟩ := lookedUp_outcome other_lookedUp
      refine ⟨⟨rfl, ?_, alike.host⟩, ⟨cached, noted⟩, ⟨other_cached, other_noted⟩⟩
      simp only [outcome, alike.sink]
    | @error error run run' alike lookedUp other_lookedUp =>
      obtain ⟨cached, noted⟩ := lookedUp_outcome lookedUp
      obtain ⟨other_cached, other_noted⟩ := lookedUp_outcome other_lookedUp
      refine ⟨⟨?_, ?_, alike.host⟩, ⟨cached, noted⟩, ⟨other_cached, other_noted⟩⟩ <;>
        simp only [outcome, alike.sink]

/-! ## Any engine -/

theorem compiled_perform {engine : Engine σ} (compiled : engine.cache.Compiled)
    (operation : Operation σ) : (engine.perform operation).cache.Compiled := by
  cases operation with
  | registerTemplate name source => exact compiled
  | registerData name value => exact compiled
  | setMaxDepth depth => exact compiled
  | registerSaved name text =>
    rcases perform_registerSaved engine name text with same | ⟨program, _, changed⟩
    · rwa [same]
    · rwa [changed]
  | loadSaved text =>
    rcases perform_loadSaved engine text with same | ⟨table, _, changed⟩
    · rwa [same]
    · rwa [changed]
  | render job target host =>
    obtain ⟨texts, _, lookedUp, _⟩ := render_alike compiled compiled job target host
    intro text program found
    rw [perform, lookedUp.cached] at found
    split at found
    · cases found
      rfl
    · exact compiled text program found

/-- Whatever was done with an engine, its cache holds compiled texts. -/
theorem compiled_after (operations : List (Operation σ)) : (after operations).cache.Compiled := by
  suffices ∀ engine : Engine σ, engine.cache.Compiled →
      (operations.foldl perform engine).cache.Compiled from
    this new fun text program found => by cases found
  induction operations with
  | nil => exact fun _ compiled => compiled
  | cons operation operations ih => exact fun _ compiled => ih _ (compiled_perform compiled _)

/-- A render looks up the template of a text. -/
def LooksUp (engine : Engine σ) (job : Job σ) (target : Target) (host : σ) (text : String) :
    Prop :=
  ∃ data host', job.prepared host = .ok data host' ∧
    Fetches (engine.setting job) (engine.setting job).maxDepth
      ⟨job.program.source, job.keepUndefined, job.start data⟩ job.program.blocks
      (engine.begin target host') text

/-- With nothing cached, a render notes the texts that it looks up. -/
theorem looksUp_iff_noted {engine : Engine σ} (compiled : engine.cache.Compiled) (job : Job σ)
    (target : Target) (host : σ) (text : String) :
    engine.LooksUp job target host text ↔ Notice.compilingFragment text ∈
      ({ engine with cache := .empty }.render job target host).notices := by
  let uncached : Engine σ := { engine with cache := .empty }
  show _ ↔ Notice.compilingFragment text ∈ (uncached.render job target host).notices
  cases ready : job.prepared host with
  | error error host' =>
    rw [uncached.render_of_error target ready]
    refine iff_of_false ?_ List.not_mem_nil
    rintro ⟨_, _, prepared, _⟩
    cases ready.symm.trans prepared
  | ok data host' =>
    have begun : (engine.begin target host').cache.Compiled := compiled
    rw [uncached.render_of_ok target ready, notices_outcome, Array.mem_toList_iff]
    refine Iff.trans ⟨?_, fun fetches => ⟨data, host', ready, fetches⟩⟩
      (renderBlocks_looksUp_iff begun).symm
    rintro ⟨_, _, prepared, fetches⟩
    cases ready.symm.trans prepared
    exact fetches

/-- The cache is transparent. It holds compiled texts, whatever was done with the engine. A render
changes nothing of the engine but the cache, where it keeps every entry and adds the templates of
the texts that it looked up in vain; these are the texts that it notes. Its result and what it
writes are the same as with nothing cached. -/
theorem render_independent (operations : List (Operation σ)) :
    (∀ entry ∈ (after operations).cache.entries, entry.2 = (Program.compile entry.1).value) ∧
    ∀ (job : Job σ) (target : Target) (host : σ),
      let engine := after operations
      let outcome := engine.render job target host
      let uncached := { engine with cache := .empty }.render job target host
      outcome.engine = { engine with cache := outcome.engine.cache } ∧
      (∀ text program, outcome.engine.cache.find? text = some program ↔
        engine.cache.find? text = some program ∨
          engine.cache.find? text = none ∧ engine.LooksUp job target host text ∧
            program = (Program.compile text).value) ∧
      (∀ text, Notice.compilingFragment text ∈ outcome.notices ↔
        engine.cache.find? text = none ∧ engine.LooksUp job target host text) ∧
      outcome.result = uncached.result ∧ outcome.writes = uncached.writes ∧
      outcome.host = uncached.host := by
  have compiled := compiled_after operations
  have none_compiled : (Table.empty : Table Program).Compiled := fun _ _ found => by cases found
  refine ⟨fun entry mem => compiled entry.1 entry.2 ((Table.find?_eq_some_iff _).mpr mem), ?_⟩
  intro job target host engine outcome uncached
  obtain ⟨cache, changed⟩ := render_engine engine job target host
  obtain ⟨texts, alike, lookedUp, uncached_lookedUp⟩ :=
    render_alike compiled none_compiled job target host
  have looks : ∀ text, engine.LooksUp job target host text ↔ text ∈ texts := by
    intro text
    rw [looksUp_iff_noted compiled, uncached_lookedUp.noted]
    simp
  refine ⟨by rw [changed], ?_, ?_, alike.result, alike.writes, alike.host⟩
  · intro text program
    rw [lookedUp.cached, looks]
    cases found : engine.cache.find? text with
    | none =>
      by_cases mem : text ∈ texts <;> simp [mem, eq_comm]
    | some known =>
      obtain rfl := compiled text known found
      by_cases mem : text ∈ texts <;> simp [mem]
  · intro text
    rw [looks, lookedUp.noted]
    exact and_comm

end Engine

end Stencil
