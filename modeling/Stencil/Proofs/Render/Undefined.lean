import Stencil.Proofs.Render.Limited

/-!
# Placeholders without a value

A render may write a placeholder without a value again as a tag, or leave it out. Apart from these
tags it makes no difference which of the two is done.

1. `Eval.Adds`: a step that goes as another one, and may write such tags beside.
2. `renderBlocks_adds`: rendering that writes the tags is such a step, told from rendering that
   leaves them out.
3. `Reaches.exists_placeholder`: each of these tags is that of a placeholder without a value.
4. `Engine.render_keepUndefined`: the same for whole renders.
-/

namespace Stencil

variable {σ : Type}

/-- The output of a run without the placeholders that were written again. -/
def Sink.defined (sink : Sink) : Sink :=
  { sink with writes := sink.writes.filter (·.origin != .undefined) }

/-- A run without the placeholders that were written again. -/
def Run.defined (run : Run σ) : Run σ := run.withSink run.sink.defined

/-- A place where placeholders without a value are left out. -/
def Place.leavingOut (place : Place σ) : Place σ := { place with keepUndefined := false }

theorem Sink.defined_adding (sink : Sink) (writes : List Write) :
    (sink.adding writes).defined =
      sink.defined.adding (writes.filter (·.origin != .undefined)) := by
  simp [defined, adding, Array.filter_append]

namespace Eval

variable {α β : Type}

/-- A step that goes as another one, and may write placeholders again beside what that one writes.
Both do so in any output that takes everything. -/
structure Adds (step step' : Eval σ α) : Prop where
  defined : ∀ run : Run σ, run.sink.room = none →
    step' run.defined = changed Run.defined (step run)
  unlimited : ∀ run : Run σ, run.sink.room = none → (after step run).sink.room = none

theorem Adds.bind {step step' : Eval σ α} {next next' : α → Eval σ β} (first : Adds step step')
    (second : ∀ result, Adds (next result) (next' result)) :
    Adds (step >>= next) (step' >>= next') := by
  constructor
  · intro run unlimited
    have same := first.defined run unlimited
    have still := first.unlimited run unlimited
    cases ran : step run with
    | ok result run' =>
      rw [ran] at same
      rw [after_of_ok ran] at still
      rw [bind_of_ok ran, bind_of_ok same]
      exact (second result).defined run' still
    | error error run' =>
      rw [ran] at same
      rw [bind_of_error ran, bind_of_error same]
      rfl
  · intro run unlimited
    have still := first.unlimited run unlimited
    cases ran : step run with
    | ok result run' =>
      rw [after_of_ok ran] at still
      rw [after_bind_of_ok ran]
      exact (second result).unlimited run' still
    | error error run' =>
      rw [after_of_error ran] at still
      rwa [after_bind_of_error ran]

/-- A step that leaves the output alone goes the same, whatever was written again before. -/
theorem Quiet.adds {step : Eval σ α} (quiet : Quiet step) : Adds step step where
  defined := fun run _ => quiet.changed_sink Sink.defined run
  unlimited := fun run unlimited => by rwa [quiet.sink_after run]

theorem adds_emit {origin : Origin} (defined : origin ≠ .undefined) (text : String) :
    Adds (emit origin text : Eval σ Unit) (emit origin text) := by
  constructor
  · intro run unlimited
    have defined_unlimited : run.defined.sink.room = none := unlimited
    have stays : [(⟨origin, text⟩ : Write)].filter (·.origin != .undefined) =
        [⟨origin, text⟩] := by simp [defined]
    rw [emit_of_unlimited origin text unlimited, emit_of_unlimited origin text defined_unlimited]
    show EStateM.Result.ok () (run.withSink (run.sink.defined.adding _)) =
      .ok () (run.withSink (run.sink.adding _).defined)
    rw [Sink.defined_adding, stays]
  · intro run unlimited
    rw [after_of_ok (emit_of_unlimited origin text unlimited)]
    exact unlimited

/-- What is written again is all that is added. -/
theorem adds_emit_undefined (text : String) :
    Adds (emit .undefined text : Eval σ Unit) (pure ()) := by
  constructor
  · intro run unlimited
    rw [emit_of_unlimited .undefined text unlimited]
    show EStateM.Result.ok () (run.withSink run.sink.defined) =
      .ok () (run.withSink (run.sink.adding [⟨.undefined, text⟩]).defined)
    rw [Sink.defined_adding]
    exact congrArg (fun sink => EStateM.Result.ok () (run.withSink sink))
      run.sink.defined.adding_nil.symm
  · intro run unlimited
    rw [after_of_ok (emit_of_unlimited .undefined text unlimited)]
    exact unlimited

theorem Adds.locate (source : String) (span : Span) {step step' : Eval σ α}
    (adds : Adds step step') : Adds (locate source span step) (locate source span step') := by
  constructor
  · intro run unlimited
    unfold Eval.locate
    rw [adds.defined run unlimited]
    cases step run <;> rfl
  · intro run unlimited
    rw [after_locate]
    exact adds.unlimited run unlimited

theorem Adds.forM {step step' : α → Eval σ Unit} (each : ∀ item, Adds (step item) (step' item))
    (items : List α) : Adds (items.forM step) (items.forM step') := by
  induction items with
  | nil => exact Quiet.adds fun _ _ => rfl
  | cons item items ih => exact (each item).bind fun _ => ih

/-- What is done next may depend on the host's state. -/
theorem adds_of_host {steps steps' : σ → Eval σ α}
    (each : ∀ host, Adds (steps host) (steps' host)) :
    Adds (get >>= fun run => steps run.host) (get >>= fun run => steps' run.host) :=
  ⟨fun run unlimited => (each run.host).defined run unlimited,
    fun run unlimited => (each run.host).unlimited run unlimited⟩

theorem Adds.forEachPulled {step step' : Value σ → Eval σ Unit}
    (each : ∀ item, Adds (step item) (step' item)) :
    (pull : Pull σ) → Adds (forEachPulled step pull) (forEachPulled step' pull)
  | .done host => Quiet.adds fun _ _ => rfl
  | .failure host error => Quiet.adds fun _ _ => rfl
  | .member host item next => by
    rw [forEachPulled_member, forEachPulled_member]
    have handed : Quiet (modify fun run => { run with host } : Eval σ Unit) := fun _ _ => rfl
    refine handed.adds.bind fun _ => (each item).bind fun _ => ?_
    exact adds_of_host fun host' => Adds.forEachPulled each (next host')

theorem Adds.forEachMember {step step' : Value σ → Eval σ Unit}
    (each : ∀ item, Adds (step item) (step' item)) (value : Value σ) :
    Adds (forEachMember value step) (forEachMember value step') := by
  cases value with
  | list items => exact Adds.forM each items
  | map entries => exact Adds.forM (fun entry => each entry.2) entries
  | collection id kind pull => exact adds_of_host fun host => Adds.forEachPulled each (pull host)
  | _ => exact each _

end Eval

/-! ## Rendering -/

namespace Level

open Eval

variable {setting : Setting σ} {depth : Nat} {place : Place σ}

/-- What is done one level further down counts, if that level may be opened. -/
theorem adds_descend {next next' : Body σ → Eval σ Unit}
    (below : ∀ depth', depth = depth' + 1 →
      Adds (next (renderBlocks setting depth')) (next' (renderBlocks setting depth'))) :
    Adds ((ofDepth setting depth).descend >>= next)
      ((ofDepth setting depth).descend >>= next') := by
  cases depth with
  | zero =>
    rw [descend_bind_zero, descend_bind_zero]
    exact Quiet.adds fun _ _ => rfl
  | succ depth =>
    rw [descend_bind_succ, descend_bind_succ]
    exact below depth rfl

section

variable (below : ∀ depth', depth = depth' + 1 → ∀ (place : Place σ) (blocks : List Block),
  Adds (renderBlocks setting depth' place blocks)
    (renderBlocks setting depth' place.leavingOut blocks))
include below

theorem adds_write (p : Placeholder) (value : Value σ) :
    Adds ((ofDepth setting depth).write place p value)
      ((ofDepth setting depth).write place.leavingOut p value) := by
  unfold Level.write
  split
  · refine adds_descend fun depth' deeper => ?_
    exact (quiet_fragment _).adds.bind fun _ => below depth' deeper _ _
  · exact adds_emit (by decide) _

/-- This is the only step that asks whether a placeholder is to be written again. -/
theorem adds_placeholder (p : Placeholder) :
    Adds ((ofDepth setting depth).placeholder place p)
      ((ofDepth setting depth).placeholder place.leavingOut p) := by
  rw [placeholder_eq, placeholder_eq]
  refine (quiet_resolve _ _ _).adds.bind fun found => ?_
  cases found with
  | none =>
    show Adds (if place.keepUndefined = true then _ else _) (pure ())
    split
    · exact adds_emit_undefined _
    · exact Quiet.adds fun _ _ => rfl
  | some value =>
    dsimp only
    split
    · exact Quiet.adds fun _ _ => rfl
    · exact adds_write below p value

theorem adds_branch (blocks : List Block) :
    Adds ((ofDepth setting depth).branch place blocks)
      ((ofDepth setting depth).branch place.leavingOut blocks) := by
  unfold Level.branch
  split
  · exact Quiet.adds fun _ _ => rfl
  · exact adds_descend fun depth' deeper => below depth' deeper _ _

theorem adds_condition (name : String) (recursive : Bool) (yes no : List Block) :
    Adds ((ofDepth setting depth).condition place name recursive yes no)
      ((ofDepth setting depth).condition place.leavingOut name recursive yes no) := by
  rw [condition_eq, condition_eq]
  have decided : Quiet ((ofDepth setting depth).decision place.context name recursive) := by
    refine quiet_bind (quiet_resolve _ _ _) fun found => ?_
    cases found with
    | none => exact fun _ _ => rfl
    | some value => exact quiet_holds _ _ _ _
  exact decided.adds.bind fun _ => adds_branch below _

theorem adds_iteration (name : String) (inner : List Block) :
    Adds ((ofDepth setting depth).iteration place name inner)
      ((ofDepth setting depth).iteration place.leavingOut name inner) := by
  refine (quiet_resolve _ _ _).adds.bind fun found => ?_
  cases found with
  | none => exact Quiet.adds fun _ _ => rfl
  | some value =>
    show Adds (if (value.truthy && !inner.isEmpty) = true then _ else _)
      (if (value.truthy && !inner.isEmpty) = true then _ else _)
    split
    · refine adds_descend fun depth' deeper => ?_
      exact Adds.forEachMember (fun item => below depth' deeper _ _) value
    · exact Quiet.adds fun _ _ => rfl

theorem adds_block (block : Block) :
    Adds ((ofDepth setting depth).block place block)
      ((ofDepth setting depth).block place.leavingOut block) := by
  cases block with
  | text content span => exact adds_emit (by decide) content
  | placeholder p => exact (adds_placeholder below p).locate _ _
  | condition name recursive yes no span =>
    exact (adds_condition below name recursive yes no).locate _ _
  | iteration name inner span => exact (adds_iteration below name inner).locate _ _

end

end Level

/-- Rendering in any place goes as rendering where placeholders without a value are left out. -/
theorem renderBlocks_adds (setting : Setting σ) (depth : Nat) (place : Place σ)
    (blocks : List Block) :
    Eval.Adds (renderBlocks setting depth place blocks)
      (renderBlocks setting depth place.leavingOut blocks) := by
  induction depth using Nat.strongRecOn generalizing place blocks with
  | ind depth ih =>
    rw [renderBlocks_eq, renderBlocks_eq]
    exact Eval.Adds.forM (Level.adds_block fun depth' deeper => ih depth' (by omega)) blocks

/-- What is written for want of a value is the tag of a placeholder whose name was looked up just
before, and led nowhere. -/
theorem Reaches.exists_placeholder {setting : Setting σ} {depth : Nat} {place : Place σ}
    {blocks : List Block} {run moment : Run σ} {write : Write}
    (reached : Reaches setting depth place blocks run write moment)
    (undefined : write.origin = .undefined) :
    ∃ (p : Placeholder) (depth : Nat) (context : Context σ) (run : Run σ),
      (Level.ofDepth setting depth).resolve context p.name run = .ok none moment ∧
        write.text = p.toSource := by
  induction reached with
  | text | value => cases undefined
  | undefined resolved kept => exact ⟨_, _, _, _, resolved, rfl⟩
  | fragment _ _ _ _ _ ih | absent _ _ ih | branch _ _ _ ih | body _ _ _ _ ih | later _ _ ih =>
    exact ih undefined

namespace Engine

/-- To write placeholders without a value again only adds these tags. The render that leaves them
out has the same result, makes all other writes in the same order, and leaves the same notices, the
same cache and the same state of the host, who may record in it how it was called. Each write that
is added comes where the name of a placeholder has led nowhere, and is the tag of this placeholder.
-/
theorem render_keepUndefined (engine : Engine σ) (job : Job σ) (host : σ) :
    let keepingJob : Job σ := { job with keepUndefined := true }
    let keeping := engine.render keepingJob .text host
    let leaving := engine.render { job with keepUndefined := false } .text host
    (leaving.writes = keeping.writes.filter (·.origin != .undefined) ∧
      leaving.result = keeping.result ∧ leaving.notices = keeping.notices ∧
      leaving.engine = keeping.engine ∧ leaving.host = keeping.host) ∧
      ∀ write ∈ keeping.writes, write.origin = .undefined → ∃ moment,
        engine.Reaches keepingJob host write moment ∧
        ∃ (p : Placeholder) (depth : Nat) (context : Context σ) (run : Run σ),
          (Level.ofDepth (engine.setting job) depth).resolve context p.name run =
            .ok none moment ∧ write.text = p.toSource := by
  intro keepingJob keeping leaving
  let leavingJob : Job σ := { job with keepUndefined := false }
  refine ⟨?same, fun write mem undefined => ?tag⟩
  case tag =>
    obtain ⟨moment, reaches⟩ := engine.reaches_of_mem_writes mem
    have ⟨_, _, _, reached⟩ := reaches
    exact ⟨moment, reaches, reached.exists_placeholder undefined⟩
  cases ready : job.prepared host with
  | error error host' =>
    have keeping_ready : keepingJob.prepared host = .error error host' := ready
    have leaving_ready : leavingJob.prepared host = .error error host' := ready
    have keeping_eq : keeping = _ := engine.render_of_error .text keeping_ready
    have leaving_eq : leaving = _ := engine.render_of_error .text leaving_ready
    rw [keeping_eq, leaving_eq]
    exact ⟨rfl, rfl, rfl, rfl, rfl⟩
  | ok data host' =>
    have keeping_ready : keepingJob.prepared host = .ok data host' := ready
    have leaving_ready : leavingJob.prepared host = .ok data host' := ready
    have keeping_eq : keeping = _ := engine.render_of_ok .text keeping_ready
    have leaving_eq : leaving = _ := engine.render_of_ok .text leaving_ready
    have adds := renderBlocks_adds (engine.setting job) (engine.setting job).maxDepth
      ⟨job.program.source, true, job.start data⟩ job.program.blocks
    have same : engine.run leavingJob (leavingJob.start data) (engine.begin .text host') =
        Eval.changed Run.defined
          (engine.run keepingJob (keepingJob.start data) (engine.begin .text host')) :=
      adds.defined (engine.begin .text host') rfl
    rw [keeping_eq, leaving_eq, same]
    cases engine.run keepingJob (keepingJob.start data) (engine.begin .text host') with
    | ok result run => exact ⟨Array.toList_filter .., rfl, rfl, rfl, rfl⟩
    | error error run => exact ⟨Array.toList_filter .., rfl, rfl, rfl, rfl⟩

end Engine

end Stencil
