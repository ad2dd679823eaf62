import Stencil.Proofs.Render.Limited

/-!
# The limit on depth only cuts

A render with a lower limit goes exactly as one with a higher limit, unless it reaches the limit.
Then it has written a front part of what the other one writes.

1. `Eval.Cuts`: the relation between the steps of the two renders.
2. `renderBlocks_cuts`: rendering with fewer levels left cuts rendering with more.
3. `Engine.render_deeper`: the same for whole renders.
-/

namespace Stencil

variable {σ : Type}

namespace Eval

variable {α β : Type}

/-! ## Output grows -/

/-- A step that leaves in the output what is there. -/
def Grows (step : Eval σ α) : Prop :=
  ∀ run, run.sink.writes.toList <+: (after step run).sink.writes.toList

theorem grows_bind {step : Eval σ α} {next : α → Eval σ β} (first : Grows step)
    (second : ∀ result, Grows (next result)) : Grows (step >>= next) := by
  intro run
  have grown := first run
  cases ran : step run with
  | ok result run' =>
    rw [after_of_ok ran] at grown
    rw [after_bind_of_ok ran]
    exact grown.trans (second result run')
  | error error run' =>
    rw [after_of_error ran] at grown
    rwa [after_bind_of_error ran]

/-- Behind a step, whatever comes next leaves in the output what the step wrote. -/
theorem prefix_bind (step : Eval σ α) {next : α → Eval σ β}
    (second : ∀ result, Grows (next result)) (run : Run σ) :
    (after step run).sink.writes.toList <+: (after (step >>= next) run).sink.writes.toList := by
  cases ran : step run with
  | ok result run' =>
    rw [after_of_ok ran, after_bind_of_ok ran]
    exact second result run'
  | error error run' =>
    simp only [after_of_error ran, after_bind_of_error ran]
    exact List.prefix_rfl

theorem grows_emit (origin : Origin) (text : String) : Grows (emit origin text : Eval σ Unit) := by
  intro run
  unfold after emit
  cases put : run.sink.put? ⟨origin, text⟩ with
  | none => exact List.prefix_rfl
  | some sink =>
    have pushed : sink.writes = run.sink.writes.push ⟨origin, text⟩ := by
      unfold Sink.put? at put
      split at put
      · cases put
        rfl
      · split at put
        · cases put
          rfl
        · cases put
    dsimp only
    rw [pushed, Array.toList_push]
    exact List.prefix_append _ _

/-- What a step writes while it is captured does not reach the output. -/
theorem sink_after_capture (step : Eval σ Unit) (run : Run σ) :
    (after (capture step) run).sink = run.sink := by
  rw [after_capture]

theorem grows_fragment (text : String) : Grows (fragment text : Eval σ Program) := by
  intro run
  unfold after fragment
  cases run.cache.find? text <;> exact List.prefix_rfl

theorem grows_forEachPulled {step : Value σ → Eval σ Unit} (each : ∀ item, Grows (step item)) :
    (pull : Pull σ) → Grows (forEachPulled step pull)
  | .done host => fun _ => List.prefix_rfl
  | .failure host error => fun _ => List.prefix_rfl
  | .member host item next => by
    rw [forEachPulled_member]
    refine grows_bind (fun _ => List.prefix_rfl) fun _ => ?_
    refine grows_bind (each item) fun _ => ?_
    exact grows_bind (fun _ => List.prefix_rfl) fun run =>
      grows_forEachPulled each (next run.host)

/-- No step takes anything out of the output. -/
theorem grows_closed : Eval.Closed (fun {α} (step : Eval σ α) => Grows step) where
  pure := fun _ _ => List.prefix_rfl
  bind := grows_bind
  emit := grows_emit
  note := fun _ _ _ => List.prefix_rfl
  raise := fun _ _ => List.prefix_rfl
  call := by
    intro compute run
    unfold after call
    cases compute run.host <;> exact List.prefix_rfl
  locate := by
    intro α source span step grows run
    rw [after_locate]
    exact grows run
  capture := by
    intro step _ run
    simp only [sink_after_capture]
    exact List.prefix_rfl
  fragment := grows_fragment
  forEachPulled := fun pull each run => grows_forEachPulled each (pull run.host) run

/-! ## Cutting -/

/-- A step that goes as another one, unless it ends at the limit on depth. Then it has written a
front part of what the other one writes. -/
structure Cuts (step step' : Eval σ α) : Prop where
  same_or_cut : ∀ run, step run = step' run ∨
    ∃ error run', step run = .error error run' ∧ error.cause.isMaxDepth = true ∧
      run'.sink.writes.toList <+: (after step' run).sink.writes.toList
  grows : Grows step'

theorem Cuts.refl {step : Eval σ α} (grows : Grows step) : Cuts step step :=
  ⟨fun _ => .inl rfl, grows⟩

/-- At the limit, any step is cut before it writes anything. -/
theorem cuts_raise (limit : Nat) {step : Eval σ α} (grows : Grows step) :
    Cuts (raise (.maxDepth limit)) step :=
  ⟨fun run => .inr ⟨_, run, rfl, rfl, grows run⟩, grows⟩

theorem cuts_bind {step step' : Eval σ α} {next next' : α → Eval σ β} (first : Cuts step step')
    (second : ∀ result, Cuts (next result) (next' result)) :
    Cuts (step >>= next) (step' >>= next') := by
  have later : ∀ result, Grows (next' result) := fun result => (second result).grows
  refine ⟨fun run => ?_, grows_bind first.grows later⟩
  rcases first.same_or_cut run with same | ⟨error, run', failed, limit, front⟩
  · cases ran : step' run with
    | ok result run' =>
      rw [bind_of_ok (same.trans ran), bind_of_ok ran, after_bind_of_ok ran]
      exact (second result).same_or_cut run'
    | error error run' =>
      rw [bind_of_error (same.trans ran), bind_of_error ran]
      exact .inl rfl
  · exact .inr ⟨error, run', bind_of_error failed next, limit,
      front.trans (prefix_bind step' later run)⟩

theorem cuts_locate (source : String) (span : Span) {step step' : Eval σ α}
    (cuts : Cuts step step') : Cuts (locate source span step) (locate source span step') := by
  refine ⟨fun run => ?_, fun run => ?_⟩
  · rw [after_locate]
    rcases cuts.same_or_cut run with same | ⟨error, run', failed, limit, front⟩
    · left
      rw [locate, locate, same]
    · refine .inr ⟨error.locate source span, run', by rw [locate, failed], ?_, front⟩
      rw [Error.cause_locate]
      exact limit
  · rw [after_locate]
    exact cuts.grows run

theorem cuts_capture {step step' : Eval σ Unit} (cuts : Cuts step step') :
    Cuts (capture step) (capture step') := by
  refine ⟨fun run => ?_, fun run => ?_⟩
  · rcases cuts.same_or_cut { run with sink := .unlimited } with
      same | ⟨error, run', failed, limit, _⟩
    · left
      rw [capture, capture, same]
    · refine .inr ⟨error, { run' with sink := run.sink }, by rw [capture, failed], limit, ?_⟩
      simp only [sink_after_capture]
      exact List.prefix_rfl
  · simp only [sink_after_capture]
    exact List.prefix_rfl

theorem cuts_forEachPulled {step step' : Value σ → Eval σ Unit}
    (each : ∀ item, Cuts (step item) (step' item)) :
    (pull : Pull σ) → Cuts (forEachPulled step pull) (forEachPulled step' pull)
  | .done host => .refl fun _ => List.prefix_rfl
  | .failure host error => .refl fun _ => List.prefix_rfl
  | .member host item next => by
    rw [forEachPulled_member, forEachPulled_member]
    refine cuts_bind (.refl fun _ => List.prefix_rfl) fun _ => ?_
    refine cuts_bind (each item) fun _ => ?_
    exact cuts_bind (.refl fun _ => List.prefix_rfl) fun run =>
      cuts_forEachPulled each (next run.host)

/-- What is put together from steps is cut where one of them is. -/
theorem cuts_congruence : Eval.Congruence (fun _ : Value σ => True) Cuts where
  null := trivial
  text := fun _ => trivial
  item := fun _ _ => trivial
  entry := fun _ _ => trivial
  pure := fun result _ => .refl (grows_closed.pure result)
  bind := fun first second => cuts_bind first fun result => second result fun _ _ => trivial
  emit := fun origin text => .refl (grows_closed.emit origin text)
  note := fun name path => .refl (grows_closed.note name path)
  call := fun _ => .refl (grows_closed.call _)
  locate := fun source span _ _ cuts => cuts_locate source span cuts
  capture := cuts_capture
  fragment := fun text => .refl (grows_closed.fragment text)
  forEachPulled := by
    intro id kind pull step step' _ each
    exact cuts_bind (.refl fun _ => List.prefix_rfl : Cuts (get : Eval σ (Run σ)) get)
      fun run => cuts_forEachPulled (fun item => each item trivial) (pull run.host)

end Eval

/-! ## Rendering -/

namespace Level

/-- The level at the limit cuts any other one. -/
theorem cuts_related_zero {setting setting' : Setting σ}
    (templates : setting'.templates = setting.templates) (data : setting'.data = setting.data)
    (depth' : Nat) :
    Related (fun _ => True) Eval.Cuts (ofDepth setting 0) (ofDepth setting' depth') where
  templates := by rw [setting_ofDepth, setting_ofDepth, templates]
  data := by rw [setting_ofDepth, setting_ofDepth, data]
  registered := fun _ _ _ => trivial
  descend := by
    intro α _ next next' after
    rw [descend_bind_zero]
    refine Eval.cuts_raise setting.maxDepth ?_
    cases depth' with
    | zero => exact Eval.grows_closed.raise setting'.maxDepth
    | succ depth' =>
      rw [descend_bind_succ]
      exact (after _ _ fun place blocks _ =>
        .refl (Eval.grows_closed.renderBlocks setting' depth' place blocks)).grows

theorem cuts_related_succ {setting setting' : Setting σ}
    (templates : setting'.templates = setting.templates) (data : setting'.data = setting.data)
    {depth depth' : Nat}
    (below : ∀ place blocks, Eval.Cuts (renderBlocks setting depth place blocks)
      (renderBlocks setting' depth' place blocks)) :
    Related (fun _ => True) Eval.Cuts (ofDepth setting (depth + 1))
      (ofDepth setting' (depth' + 1)) where
  templates := templates
  data := data
  registered := fun _ _ _ => trivial
  descend := by
    intro α _ next next' after
    rw [descend_bind_succ, descend_bind_succ]
    exact after _ _ fun place blocks _ => below place blocks

end Level

/-- Rendering with fewer levels left goes as rendering with more, unless it ends at the limit. -/
theorem renderBlocks_cuts (setting setting' : Setting σ)
    (templates : setting'.templates = setting.templates) (data : setting'.data = setting.data)
    {depth depth' : Nat} (le : depth ≤ depth') (place : Place σ) (blocks : List Block) :
    Eval.Cuts (renderBlocks setting depth place blocks)
      (renderBlocks setting' depth' place blocks) := by
  induction depth generalizing depth' place blocks with
  | zero =>
    exact (Level.cuts_related_zero templates data depth').renderBlocks Eval.cuts_congruence
      ⟨trivial, trivial⟩ blocks
  | succ depth ih =>
    obtain ⟨depth', rfl⟩ := Nat.exists_eq_add_of_le' (Nat.le_trans (Nat.le_add_left 1 depth) le)
    exact (Level.cuts_related_succ templates data
      (ih (Nat.le_of_succ_le_succ le))).renderBlocks Eval.cuts_congruence ⟨trivial, trivial⟩ blocks

/-- Finding a value with fewer levels left goes as finding it with more, unless it ends at the
limit. -/
theorem Level.cuts_agree (setting : Setting σ) {depth depth' : Nat} (le : depth ≤ depth') :
    Agree (fun _ : Value σ => True) Eval.Cuts (ofDepth setting depth) (ofDepth setting depth') := by
  cases depth with
  | zero => exact (cuts_related_zero rfl rfl depth').agree Eval.cuts_congruence
  | succ depth =>
    obtain ⟨depth', rfl⟩ := Nat.exists_eq_add_of_le' (Nat.le_trans (Nat.le_add_left 1 depth) le)
    exact (cuts_related_succ rfl rfl (renderBlocks_cuts setting setting rfl rfl
      (Nat.le_of_succ_le_succ le))).agree Eval.cuts_congruence

namespace Engine

theorem render_limit (engine : Engine σ) {job : Job σ} (target : Target) {host host' : σ}
    {data : Value σ} (ready : job.prepared host = .ok data host') (limit : Nat) :
    engine.render { job with maxDepth := some limit } target host =
      engine.outcome target (renderBlocks ⟨engine.templates, engine.data, limit⟩ limit
        ⟨job.program.source, job.keepUndefined, job.start data⟩ job.program.blocks
        (engine.begin target host')) := by
  have limited : Job.prepared { job with maxDepth := some limit } host = .ok data host' := ready
  exact engine.render_of_ok target limited

/-- The limit on depth only cuts. A render that does not end at its limit is the same with any
higher limit, in its result, its writes, and all that it leaves behind. A render that ends at its
limit has written a front part of what it writes with a higher limit. -/
theorem render_deeper (engine : Engine σ) (job : Job σ) (target : Target) (host : σ)
    {limit limit' : Nat} (le : limit ≤ limit') :
    let shallow := engine.render { job with maxDepth := some limit } target host
    let deep := engine.render { job with maxDepth := some limit' } target host
    (¬ shallow.ReachedLimit → deep = shallow) ∧
      (shallow.ReachedLimit → shallow.writes <+: deep.writes) := by
  intro shallow deep
  suffices shallow = deep ∨ shallow.ReachedLimit ∧ shallow.writes <+: deep.writes by
    rcases this with same | ⟨reached, front⟩
    · exact ⟨fun _ => same.symm, fun _ => same ▸ List.prefix_rfl⟩
    · exact ⟨fun missed => absurd reached missed, fun _ => front⟩
  cases ready : job.prepared host with
  | error error host' =>
    have failed : ∀ limit, Job.prepared { job with maxDepth := some limit } host =
        .error error host' := fun _ => ready
    left
    exact (engine.render_of_error target (failed limit)).trans
      (engine.render_of_error target (failed limit')).symm
  | ok data host' =>
    have shallow_eq : shallow = _ := engine.render_limit target ready limit
    have deep_eq : deep = _ := engine.render_limit target ready limit'
    have cuts := renderBlocks_cuts ⟨engine.templates, engine.data, limit⟩
      ⟨engine.templates, engine.data, limit'⟩ rfl rfl le
      ⟨job.program.source, job.keepUndefined, job.start data⟩ job.program.blocks
    rw [shallow_eq, deep_eq]
    rcases cuts.same_or_cut (engine.begin target host') with
      same | ⟨error, run, failed, reached, front⟩
    · left
      rw [same]
    · right
      rw [failed]
      have other : error.cause ≠ .format := fun format => by
        rw [format] at reached
        cases reached
      have kept : run.sink.refusal = none :=
        engine.refusal_of_run { job with maxDepth := some limit } failed other
      refine ⟨⟨error, congrArg Except.error (target.error_of_accepted kept error), reached⟩, ?_⟩
      rw [writes_outcome]
      exact front

/-- The host counts how often the value is asked for. The branch is one level too deep for the
lower limit. -/
theorem render_deeper_branch :
    let value : Value Nat := .computed 0 fun calls =>
      .value (calls + 1) (.text (if calls = 0 then "first" else "later"))
    let program := (Program.compile
      "\x7b\x7bn\x7d\x7d \x7b\x7bif n\x7d\x7dthen \x7b\x7bn\x7d\x7d\x7b\x7bend\x7d\x7d").value
    let job : Job Nat := ⟨program, .map [("n", value)], false, none, false, none⟩
    let shallow := Engine.new.render { job with maxDepth := some 0 } .text 0
    let deep := Engine.new.render { job with maxDepth := some 1 } .text 0
    (0 ≤ 1 ∧ (shallow.written, shallow.host) = ("first ", 2) ∧
        (deep.written, deep.host) = ("first then later", 3)) ∧
      (¬ shallow.ReachedLimit → deep = shallow) ∧
        (shallow.ReachedLimit → shallow.writes <+: deep.writes) :=
  ⟨by decide +kernel, render_deeper _ _ _ _ (Nat.zero_le 1)⟩

end Engine

end Stencil
