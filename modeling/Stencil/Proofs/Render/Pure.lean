import Stencil.Proofs.Render.Cache
import Stencil.Proofs.Render.Output
import Stencil.Proofs.Value.Pure

/-!
# Rendering pure data

To find a value writes nothing, and in pure data it leaves the host as it is. The cache and the
notices are all that changes, and no step depends on them. So whatever comes behind goes on as if
nothing had been looked up.

1. `Eval.Leaves`: a step that finds pure data, with what is known of the run behind it.
2. `renderBlocks_keepsHost`: all rendering of pure data leaves the host as it is.
3. `Level.inert_agree`: finding a value leaves a run alike.
-/

namespace Stencil

variable {σ : Type}

/-- What a render finds in pure data is pure. -/
theorem Value.pure_hereditary : Value.Hereditary (@Value.IsPure σ) where
  null := .null
  text := .text
  item := by
    rintro items item ⟨⟩ mem
    next pure => exact pure item mem
  entry := by
    rintro entries entry ⟨⟩ mem
    next pure => exact pure entry mem

namespace Eval

variable {α β : Type} [Carries σ α] [Carries σ β]

/-- A step that finds pure data, and leaves each run in a relation to what it was before. -/
structure Leaves (Behind : Run σ → Run σ → Prop) (step : Eval σ α) : Prop where
  behind : ∀ run, Behind run (after step run)
  found : ∀ {run result run'}, step run = .ok result run' →
    Carries.All (@Value.IsPure σ) result

theorem leaves_bind {Behind : Run σ → Run σ → Prop}
    (trans : ∀ {run between run'}, Behind run between → Behind between run' → Behind run run')
    {step : Eval σ α} {next : α → Eval σ β} (first : Leaves Behind step)
    (second : ∀ result, Carries.All (@Value.IsPure σ) result → Leaves Behind (next result)) :
    Leaves Behind (step >>= next) := by
  constructor
  · intro run
    have left := first.behind run
    cases ran : step run with
    | ok result run' =>
      rw [after_of_ok ran] at left
      rw [after_bind_of_ok ran]
      exact trans left ((second result (first.found ran)).behind run')
    | error error run' =>
      rw [after_of_error ran] at left
      rwa [after_bind_of_error ran]
  · intro run result run'' done
    cases ran : step run with
    | ok between run' =>
      rw [bind_of_ok ran] at done
      exact (second between (first.found ran)).found done
    | error error run' =>
      rw [bind_of_error ran] at done
      cases done

/-- A step that gives nothing finds no data. -/
theorem leaves_of_behind {Behind : Run σ → Run σ → Prop} {step : Eval σ Unit}
    (behind : ∀ run, Behind run (after step run)) : Leaves Behind step :=
  ⟨behind, fun _ _ mem => nomatch mem⟩

theorem leaves_pure {Behind : Run σ → Run σ → Prop} (refl : ∀ run, Behind run run) {result : α}
    (known : Carries.All (@Value.IsPure σ) result) :
    Leaves Behind (pure result : Eval σ α) := by
  refine ⟨refl, ?_⟩
  rintro run _ _ ⟨⟩
  exact known

/-- Calling a pure value changes nothing. -/
theorem after_call {call : σ → Reply σ} (pure : ∀ host, (call host).IsPure host) (run : Run σ) :
    after (Eval.call call) run = run := by
  have reply := pure run.host
  unfold after Eval.call
  generalize call run.host = given at reply
  cases reply <;> rfl

theorem leaves_call {Behind : Run σ → Run σ → Prop} (refl : ∀ run, Behind run run)
    {call : σ → Reply σ} (pure : ∀ host, (call host).IsPure host) :
    Leaves Behind (Eval.call call) := by
  constructor
  · intro run
    rw [after_call pure]
    exact refl run
  · intro run result run' done
    have reply := pure run.host
    unfold Eval.call at done
    generalize call run.host = given at reply done
    cases reply with
    | value pure =>
      cases done
      intro value mem
      rwa [List.mem_singleton.mp mem]
    | failure error => cases done

/-! ## The host -/

/-- A step that leaves the host as it is, and finds pure data. -/
abbrev KeepsHost (step : Eval σ α) : Prop :=
  Leaves (fun run run' => run'.host = run.host) step

/-- Whoever asks a pure collection for its members finds the host as it was. -/
theorem after_forEachPulled_host {step : Value σ → Eval σ Unit}
    (each : ∀ item : Value σ, item.IsPure → KeepsHost (step item)) :
    (pull : Pull σ) → (host : σ) → pull.IsPure host → (run : Run σ) →
      (after (forEachPulled step pull) run).host = host
  | .done _ => by
    rintro host ⟨⟩ run
    rfl
  | .failure _ error => by
    rintro host ⟨⟩ run
    rfl
  | .member host item next => by
    intro _ asked run
    cases asked with | member pure rest
    have kept := (each item pure).behind { run with host }
    cases ran : step item { run with host } with
    | ok result run' =>
      have later : after (forEachPulled step (.member host item next)) run =
          after (forEachPulled step (next run'.host)) run' := by
        simp only [after, forEachPulled, ran]
      rw [after_of_ok ran] at kept
      rw [later, after_forEachPulled_host each _ _ (rest run'.host), kept]
    | error error run' =>
      have ended : forEachPulled step (.member host item next) run = .error error run' := by
        simp only [forEachPulled, ran]
      rw [after_of_error ran] at kept
      rw [after_of_error ended, kept]

/-- Rendering pure data leaves the host as it is. -/
theorem keepsHost_congruence :
    Eval.Congruence (@Value.IsPure σ) fun step _ => KeepsHost step where
  toHereditary := Value.pure_hereditary
  pure := by
    refine fun result known => leaves_pure (fun run => ?_) known
    rfl
  bind := leaves_bind fun first second => second.trans first
  note := fun _ _ => leaves_of_behind fun _ => rfl
  call := by
    rintro id call ⟨⟩
    next pure =>
      refine leaves_call (fun run => ?_) pure
      rfl
  emit := by
    refine fun origin text => leaves_of_behind fun run => ?_
    unfold after emit
    cases run.sink.put? ⟨origin, text⟩ <;> rfl
  locate := by
    refine fun source span _ _ keeps => leaves_of_behind fun run => ?_
    rw [after_locate]
    exact keeps.behind run
  capture := by
    refine fun keeps => ⟨fun run => ?_, fun _ _ mem => nomatch mem⟩
    rw [after_capture]
    exact keeps.behind _
  fragment := by
    refine fun text => ⟨fun run => ?_, fun _ _ mem => nomatch mem⟩
    unfold after fragment
    cases run.cache.find? text <;> rfl
  forEachPulled := by
    rintro id kind pull step _ ⟨⟩ each
    next pure =>
      refine leaves_of_behind fun run => ?_
      exact after_forEachPulled_host each _ _ (pure run.host) run

/-! ## Steps that change nothing that counts -/

/-- A step that finds pure data, and changes nothing but the cache and the notices. -/
abbrev Inert (step : Eval σ α) : Prop :=
  Leaves (fun run run' => run.cache.Compiled → run'.Alike run) step

theorem Inert.alike {step : Eval σ α} (inert : Inert step) {run run' : Run σ}
    (compiled : run.cache.Compiled) {result : α} (done : step run = .ok result run') :
    run'.Alike run := by
  have alike := inert.behind run compiled
  rwa [after_of_ok done] at alike

theorem inert_bind {step : Eval σ α} {next : α → Eval σ β} (first : Inert step)
    (second : ∀ result, Carries.All (@Value.IsPure σ) result → Inert (next result)) :
    Inert (step >>= next) :=
  leaves_bind (fun first second compiled =>
    (second (first compiled).compiled).trans (first compiled)) first second

theorem inert_sequential : Eval.Sequential (@Value.IsPure σ) fun step _ => Inert step where
  toHereditary := Value.pure_hereditary
  pure := fun _ known => leaves_pure (fun _ => .refl) known
  bind := inert_bind
  note := fun _ _ => leaves_of_behind fun run compiled => ⟨rfl, rfl, compiled, compiled⟩
  call := by
    rintro id call ⟨⟩
    next pure => exact leaves_call (fun _ => .refl) pure

/-- What is captured is not written. -/
theorem inert_capture {step : Eval σ Unit} (keeps : KeepsHost step)
    (transparent : Transparent step) : Inert (capture step) := by
  refine ⟨fun run compiled => ?_, fun _ _ mem => nomatch mem⟩
  rw [after_capture]
  exact ⟨keeps.behind _, rfl, transparent.compiled compiled, compiled⟩

end Eval

/-- Rendering pure data leaves the host as it is, at every depth. -/
theorem renderBlocks_keepsHost {setting : Setting σ} (registered : setting.data.Pure) (depth : Nat)
    {place : Place σ} (known : place.context.All Value.IsPure) (blocks : List Block) :
    Eval.KeepsHost (renderBlocks setting depth place blocks) :=
  Eval.keepsHost_congruence.renderBlocks (P := fun step => Eval.KeepsHost step)
    ⟨fun _ => rfl, fun failed => nomatch failed⟩ (fun _ _ found => registered.find found) depth
    known blocks

namespace Level

/-- Finding a value in pure data leaves a run alike, however it is found. -/
theorem inert_agree {setting : Setting σ} (registered : setting.data.Pure) (depth : Nat) :
    Agree (@Value.IsPure σ) (fun step _ => Eval.Inert step) (ofDepth setting depth)
      (ofDepth setting depth) := by
  refine ⟨rfl, rfl, ?_, ?_⟩
  · rw [setting_ofDepth]
    exact fun _ _ found => registered.find found
  · intro name program _ context known
    cases depth with
    | zero =>
      exact ⟨fun run => .refl, fun failed => nomatch failed⟩
    | succ depth =>
      rw [renderPrivately, descend_bind_succ]
      exact Eval.inert_capture (renderBlocks_keepsHost registered depth known _)
        (Eval.transparent_closed.renderBlocks _ _ _ _)

theorem inert_resolve {setting : Setting σ} (registered : setting.data.Pure) (depth : Nat)
    {context : Context σ} (known : context.All Value.IsPure) (text : String) :
    Eval.Inert ((ofDepth setting depth).resolve context text) :=
  (inert_agree registered depth).resolve Eval.inert_sequential known text

end Level

end Stencil
