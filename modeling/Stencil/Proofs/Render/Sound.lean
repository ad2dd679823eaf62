import Stencil.Proofs.Render.Outcome
import Stencil.Proofs.Text.Escape
import Stencil.Proofs.Token.Positions
import Stencil.Proofs.Value.Plain

/-!
# Rendering plain data

With plain data there is nothing that a render could ask the host for, so only the limit on depth
can end it. All data that it comes across is plain: the members of plain data, and the texts of
registered templates.

1. `Eval.Sound`: a step that finds plain data, or fails with a certain kind of error.
2. `renderBlocks_sound`: rendering fails only at the limit.
-/

namespace Stencil

variable {σ : Type}

/-- What a render finds in plain data is plain. -/
theorem Value.plain_hereditary : Value.Hereditary (@Value.IsPlain σ) where
  null := rfl
  text := fun _ => rfl
  item := by
    intro items item h mem
    rw [IsPlain, plain] at h
    exact plain_of_mem_items h mem
  entry := by
    intro entries entry h mem
    rw [IsPlain, plain] at h
    exact plain_of_mem_entries h mem

namespace Eval

/-- A step that, where the output takes everything, finds plain data or fails with an error of the
kind `E`. -/
def Sound (E : Error → Prop) {α : Type} [Carries σ α] (step : Eval σ α) : Prop :=
  ∀ run, run.sink.room = none →
    (∃ result run', step run = .ok result run' ∧ run'.sink.room = none ∧
      Carries.All (@Value.IsPlain σ) result) ∨
    ∃ error run', step run = .error error run' ∧ E error

variable {E : Error → Prop} {α β : Type} [Carries σ α] [Carries σ β]

theorem sound_pure {result : α}
    (plain : Carries.All (@Value.IsPlain σ) result) :
    Sound E (pure result : Eval σ α) :=
  fun _ unlimited => .inl ⟨result, _, rfl, unlimited, plain⟩

theorem sound_done : Sound E (pure () : Eval σ Unit) :=
  sound_pure fun _ mem => nomatch mem

theorem sound_bind {step : Eval σ α} {next : α → Eval σ β} (first : Sound E step)
    (second : ∀ result, Carries.All (@Value.IsPlain σ) result →
      Sound E (next result)) : Sound E (step >>= next) := by
  intro run unlimited
  rcases first run unlimited with ⟨result, run', ran, unlimited', plain⟩ | ⟨error, run', ran, kind⟩
  · rw [bind_of_ok ran]
    exact second result plain run' unlimited'
  · exact .inr ⟨error, run', bind_of_error ran next, kind⟩

theorem sound_raise {cause : Cause} (kind : E (.ofCause cause)) :
    Sound E (raise cause : Eval σ α) :=
  fun _ _ => .inr ⟨_, _, rfl, kind⟩

theorem sound_emit (origin : Origin) (text : String) :
    Sound E (emit origin text : Eval σ Unit) := by
  intro run unlimited
  left
  unfold emit Sink.put?
  rw [unlimited]
  exact ⟨(), _, rfl, rfl, fun _ mem => nomatch mem⟩

theorem sound_note (notice : Notice) : Sound E (note notice : Eval σ Unit) :=
  fun _ unlimited => .inl ⟨(), _, rfl, unlimited, fun _ mem => nomatch mem⟩

theorem sound_locate (located : ∀ error source span, E error → E (error.locate source span))
    (source : String) (span : Span) {step : Eval σ Unit} (sound : Sound E step) :
    Sound E (locate source span step) := by
  intro run unlimited
  unfold locate
  rcases sound run unlimited with ⟨result, run', ran, unlimited', plain⟩ | ⟨error, run', ran, kind⟩
  · rw [ran]
    exact .inl ⟨result, run', rfl, unlimited', plain⟩
  · rw [ran]
    exact .inr ⟨_, run', rfl, located error source span kind⟩

theorem sound_capture {step : Eval σ Unit} (sound : Sound E step) : Sound E (capture step) := by
  intro run unlimited
  unfold capture
  rcases sound { run with sink := .unlimited } rfl with
    ⟨_, run', ran, _, _⟩ | ⟨error, run', ran, kind⟩
  · rw [ran]
    exact .inl ⟨_, _, rfl, unlimited, fun _ mem => nomatch mem⟩
  · rw [ran]
    exact .inr ⟨error, _, rfl, kind⟩

theorem sound_fragment (text : String) : Sound E (fragment text : Eval σ Program) := by
  intro run unlimited
  left
  unfold fragment
  cases run.cache.find? text with
  | some program => exact ⟨program, run, rfl, unlimited, fun _ mem => nomatch mem⟩
  | none => exact ⟨_, _, rfl, unlimited, fun _ mem => nomatch mem⟩

/-- Where errors may be pointed to directives, soundness passes to what is put together from
steps. The host is not needed, since plain data has no computed values and collections. -/
theorem sound_congruence (located : ∀ error source span, E error → E (error.locate source span)) :
    Eval.Congruence (@Value.IsPlain σ) fun step _ => Sound E step where
  toHereditary := Value.plain_hereditary
  pure := fun _ plain => sound_pure plain
  bind := sound_bind
  note := fun _ _ => sound_note _
  call := fun plain => nomatch plain
  emit := sound_emit
  locate := fun source span _ _ sound => sound_locate located source span sound
  capture := sound_capture
  fragment := sound_fragment
  forEachPulled := fun plain => nomatch plain

end Eval

/-- Rendering plain data fails only at the limit on depth. -/
theorem renderBlocks_sound {setting : Setting σ} (registered : setting.data.Plain) (depth : Nat)
    {place : Place σ} (plain : place.context.All Value.IsPlain)
    (blocks : List Block) :
    Eval.Sound (·.cause.isMaxDepth = true) (renderBlocks setting depth place blocks) := by
  have congruence : Eval.Congruence (@Value.IsPlain σ) fun step _ =>
      Eval.Sound (·.cause.isMaxDepth = true) step :=
    Eval.sound_congruence fun error source span reached => by rwa [Error.cause_locate]
  exact congruence.renderBlocks (P := fun step => Eval.Sound _ step) (Eval.sound_raise rfl)
    (fun _ _ found => registered.find found) depth plain blocks

/-- The first segments of a path. Nothing if there are not so many. -/
def Path.front? (segments : List String) (kept : Nat) : Option (List String) :=
  if kept ≤ segments.length then some (segments.take kept) else none

theorem Path.front?_sub (segments : List String) (climbs : Nat) :
    front? segments (segments.length - climbs) =
      some (segments.take (segments.length - climbs)) :=
  if_pos (Nat.sub_le _ _)

namespace Job

structure Plain (job : Job σ) : Prop where
  data : job.data.plain = true
  context : ∀ context ∈ job.context, context.All Value.IsPlain

variable {job : Job σ}

theorem Plain.prepared (plain : job.Plain) (host : σ) :
    ∃ data : Value σ, data.plain = true ∧ job.prepared host = .ok data host := by
  unfold Job.prepared
  split
  · obtain ⟨data, data_plain, same⟩ := Value.evaluate_plain plain.data
    exact ⟨data, data_plain, by rw [same]; rfl⟩
  · exact ⟨job.data, plain.data, rfl⟩

theorem Plain.start (plain : job.Plain) {data : Value σ} (data_plain : data.plain = true) :
    (job.start data).All Value.IsPlain := by
  unfold Job.start
  cases given : job.context with
  | none => exact ⟨data_plain, data_plain⟩
  | some context => exact plain.context context given

end Job

namespace Engine

/-- A render of plain data gives a text, or it ends at the limit on depth. On the way, whatever is
escaped, compiled or cut off a path by positions is there. -/
theorem render_plain (engine : Engine σ) (job : Job σ) (host : σ) (registered : engine.data.Plain)
    (plain : job.Plain) :
    ((∃ text, (engine.render job .text host).text = .ok text) ∨
        ∃ error, (engine.render job .text host).text = .error error ∧
          error.cause.isMaxDepth = true) ∧
      (∀ text, Text.escapeBytes? text = some (Text.escapeHtml text)) ∧
      (∀ source, Program.compileFrom? source = some (Program.compile source)) ∧
      ∀ segments climbs, Path.front? segments (segments.length - climbs) =
        some (segments.take (segments.length - climbs)) := by
  refine ⟨?_, Text.escapeBytes?_eq, Program.compileFrom?_eq, Path.front?_sub⟩
  obtain ⟨data, data_plain, ready⟩ := plain.prepared host
  rw [engine.render_of_ok .text ready]
  have sound : Eval.Sound (·.cause.isMaxDepth = true) (engine.run job (job.start data)) :=
    renderBlocks_sound registered _ (plain.start data_plain) _
  rcases sound (engine.begin .text host) rfl with ⟨_, run, ran, _⟩ | ⟨error, run, ran, reached⟩
  · left
    rw [ran]
    exact ⟨_, rfl⟩
  · right
    rw [ran]
    exact ⟨error, rfl, reached⟩

/-- The template names itself and is registered under the name that the job looks up, so that only
the limit ends the render. -/
theorem render_plain_self_naming :
    let engine : Engine Unit := (Engine.new.registerTemplate "a" "<\x7b\x7ba\x7d\x7d>").value
    let program := (Program.compile "\x7b\x7ba\x7d\x7d").value
    let job : Job Unit := ⟨program, .map [("b", .null)], true, none, false, some 3⟩
    (engine.data.Plain ∧ job.Plain ∧ (engine.render job .text ()).text =
        .error ⟨.maxDepth 3, some ⟨"<\x7b\x7ba\x7d\x7d>", ⟨1, 6⟩⟩⟩) ∧
      ((∃ text, (engine.render job .text ()).text = .ok text) ∨
        ∃ error, (engine.render job .text ()).text = .error error ∧
          error.cause.isMaxDepth = true) ∧
      (∀ text, Text.escapeBytes? text = some (Text.escapeHtml text)) ∧
      (∀ source, Program.compileFrom? source = some (Program.compile source)) ∧
      ∀ segments climbs, Path.front? segments (segments.length - climbs) =
        some (segments.take (segments.length - climbs)) := by
  intro engine program job
  have registered : engine.data.Plain := fun _ mem => nomatch mem
  have plain : job.Plain := ⟨rfl, fun _ given => nomatch given⟩
  exact ⟨⟨registered, plain, by decide +kernel⟩, engine.render_plain job () registered plain⟩

end Engine

end Stencil
