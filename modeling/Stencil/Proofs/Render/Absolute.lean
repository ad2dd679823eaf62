import Stencil.Proofs.Render.Plain
import Stencil.Proofs.Render.Steps

/-!
# Names that climb and absolute names

A name that climbs is read from an ancestor, which the path leads to from the root. Without
registered data this is what one name from the root leads to: the path without the segments that
were climbed, and then the rest of the name.

1. `Level.resolve_climbs`: both names are the same steps, but for a notice where the name climbs
   above the root.
2. `Eval.oblivious_closed`: rendering takes no notice of the notices.
3. `Level.resolve_absolute`: at every depth, both names end in the same way.
-/

namespace Stencil

variable {σ : Type}

namespace Level

variable {level : Level σ}

/-! ## Drilling -/

theorem drill_append (level : Level σ) (owner : Context σ) (front rest : List String) :
    level.drill owner (front ++ rest) = level.drill owner front >>= fun found =>
      match found with
      | none => pure none
      | some value =>
        level.drill ⟨value, front.foldl Path.join owner.path, owner.root⟩ rest := by
  induction front generalizing owner with
  | nil => rfl
  | cons segment front ih =>
    rw [List.cons_append, drill, drill, bind_assoc]
    congr 1
    funext found
    cases found with
    | none => rfl
    | some value => exact ih _

variable (bare : level.setting.data = .empty)
include bare

theorem drillData_of_empty (root : Value σ) (segments : List String) :
    level.drillData root segments = pure none := by
  cases segments with
  | nil => rfl
  | cons segment segments =>
    rw [drillData, bare]
    rfl

/-- Without registered data a name that does not climb is drilled, and that is all. -/
theorem find_of_empty (context : Context σ) (segments : List String) :
    level.find context segments = level.drill context segments := by
  rw [find]
  conv => rhs; rw [← bind_pure (level.drill context segments)]
  congr 1
  funext found
  cases found with
  | none => exact drillData_of_empty bare _ _
  | some value => rfl

theorem resolve_of_empty {context : Context σ} {text : String}
    (stays : (Name.ofText text).climbs = 0) :
    level.resolve context text = level.drill context (segmentsOf text) := by
  rw [resolve, Name.ofText_of_climbs_eq_zero stays]
  exact find_of_empty bare _ _

theorem resolveAtRoot_of_empty {root : Value σ} {text : String}
    (stays : (Name.ofText text).climbs = 0) :
    level.resolveAtRoot root text = level.drill (.atRoot root) (segmentsOf text) := by
  rw [resolveAtRoot, Name.ofText_of_climbs_eq_zero stays]
  exact find_of_empty bare _ _

/-! ## Climbing -/

omit bare in
/-- A path through segments that are not empty does not climb, whatever comes behind it. -/
theorem climbs_of_solid {segments others : List String} {text : String} (nonempty : segments ≠ [])
    (solid : ∀ segment ∈ segments, segment ≠ "" ∧ PointFree segment)
    (split : segmentsOf text = segments ++ others) : (Name.ofText text).climbs = 0 := by
  refine Name.climbs_eq_zero fun more same => ?_
  cases segments with
  | nil => exact nonempty rfl
  | cons segment segments =>
    rw [split, List.cons_append, List.cons.injEq] at same
    exact (solid segment List.mem_cons_self).1 same.1

variable {segments : List String} (nonempty : segments ≠ [])
  (solid : ∀ segment ∈ segments, segment ≠ "" ∧ PointFree segment)
include nonempty solid

/-- The absolute name is drilled in two parts. -/
theorem resolve_ofSegments_concat (root : Value σ) (rest : String) :
    level.resolve (.atRoot root) (Path.ofSegments (segments ++ [rest])) =
      level.resolveAtRoot root (Path.ofSegments segments) >>= fun found =>
        match found with
        | none => pure none
        | some ancestor =>
          level.drill ⟨ancestor, Path.ofSegments segments, root⟩ (segmentsOf rest) := by
  have parts := segmentsOf_ofSegments nonempty fun segment mem => (solid segment mem).2
  have all : segmentsOf (Path.ofSegments (segments ++ [rest])) = segments ++ segmentsOf rest := by
    rw [Path.ofSegments_concat nonempty, segmentsOf_append, parts]
  have front : segmentsOf (Path.ofSegments segments) = segments ++ [] := by
    rw [parts, List.append_nil]
  have joined : segments.foldl Path.join "" = Path.ofSegments segments :=
    Path.foldl_join fun segment mem => (solid segment mem).1
  rw [resolve_of_empty bare (climbs_of_solid nonempty solid all), all, drill_append,
    resolveAtRoot_of_empty bare (climbs_of_solid nonempty solid front), parts]
  show _ >>= (fun found => match found with
    | none => pure none
    | some value => level.drill ⟨value, segments.foldl Path.join "", root⟩ (segmentsOf rest)) = _
  rw [joined]
  rfl

/-- A name that climbs is the absolute name, but for a notice where it climbs above the root. -/
theorem resolve_climbs {context : Context σ} (placed : context.path = Path.ofSegments segments)
    {count : Nat} (climbing : 1 ≤ count) {rest : String}
    (stays : ¬ ['.', '.', '/'] <+: rest.toList) :
    level.resolve context (Name.climb count rest) =
      (if segments.length < count then
        Eval.note (.climbsAboveRoot (Name.climb count rest) context.path)
      else pure ()) >>= fun _ =>
        level.resolve (.atRoot context.root)
          (Path.ofSegments (segments.take (segments.length - count) ++ [rest])) := by
  obtain ⟨climbs, rfl⟩ := Nat.exists_eq_add_of_le' climbing
  have rest_stays := Name.climbs_eq_zero_of_not_prefix stays
  have name : Name.ofText (Name.climb (climbs + 1) rest) = ⟨climbs + 1, segmentsOf rest⟩ := by
    rw [Name.ofText_climbs, Name.ofText_of_climbs_eq_zero rest_stays, Nat.zero_add]
  have parts : segmentsOf context.path = segments := by
    rw [placed]
    exact segmentsOf_ofSegments nonempty fun segment mem => (solid segment mem).2
  have from_root : segments.length ≤ climbs + 1 →
      level.resolve (.atRoot context.root)
          (Path.ofSegments (segments.take (segments.length - (climbs + 1)) ++ [rest])) =
        level.drill (.atRoot context.root) (segmentsOf rest) := by
    intro all
    have only : Path.ofSegments [rest] = rest := String.intercalate_singleton
    rw [Nat.sub_eq_zero_of_le all, List.take_zero, List.nil_append, only]
    exact resolve_of_empty bare rest_stays
  rcases Nat.lt_trichotomy segments.length (climbs + 1) with above | equal | below
  · rw [if_pos above, from_root (Nat.le_of_lt above), resolve, name]
    simp only [parts]
    simp [above, Nat.le_of_lt above]
  · have height : (segmentsOf context.path).length = climbs + 1 := by
      rw [parts, equal]
    rw [if_neg (Nat.not_lt.mpr (Nat.le_of_eq equal.symm)), pure_bind,
      from_root (Nat.le_of_eq equal), resolve_climb_to_root name height]
  · have kept_ne : segments.take (segments.length - (climbs + 1)) ≠ [] := by
      rw [ne_eq, List.take_eq_nil_iff, not_or]
      exact ⟨Nat.sub_ne_zero_of_lt below, nonempty⟩
    have split : segmentsOf context.path =
        segments.take (segments.length - (climbs + 1)) ++
          segments.drop (segments.length - (climbs + 1)) := by
      rw [parts, List.take_append_drop]
    have height : (segments.drop (segments.length - (climbs + 1))).length = climbs + 1 := by
      rw [List.length_drop, Nat.sub_sub_self (Nat.le_of_lt below)]
    have absolute := resolve_ofSegments_concat bare kept_ne
      (fun segment mem => solid segment (List.mem_of_mem_take mem)) context.root rest
    rw [if_neg (Nat.lt_asymm below), pure_bind]
    exact (resolve_climb name split kept_ne height).trans absolute.symm

end Level

/-! ## Notices -/

/-- Two runs that differ in nothing but the notices. -/
structure Run.Agrees (run other : Run σ) : Prop where
  host : run.host = other.host
  cache : run.cache = other.cache
  sink : run.sink = other.sink

namespace Eval

variable {α β : Type}

inductive SameResult :
    EStateM.Result Error (Run σ) α → EStateM.Result Error (Run σ) α → Prop where
  | ok {result : α} {run other : Run σ} (agrees : run.Agrees other) :
      SameResult (.ok result run) (.ok result other)
  | error {error : Error} {run other : Run σ} (agrees : run.Agrees other) :
      SameResult (.error error run) (.error error other)

/-- A step that takes no notice of the notices. -/
def Oblivious (step : Eval σ α) : Prop :=
  ∀ run other : Run σ, run.Agrees other → SameResult (step run) (step other)

theorem oblivious_bind {step : Eval σ α} {next : α → Eval σ β} (first : Oblivious step)
    (second : ∀ result, Oblivious (next result)) : Oblivious (step >>= next) := by
  intro run other agrees
  have same := first run other agrees
  generalize ran : step run = result, other_ran : step other = result' at same
  cases same with
  | @ok result run' other' agrees =>
    rw [bind_of_ok ran, bind_of_ok other_ran]
    exact second result run' other' agrees
  | error agrees =>
    rw [bind_of_error ran, bind_of_error other_ran]
    exact .error agrees

theorem oblivious_emit (origin : Origin) (text : String) :
    Oblivious (emit origin text : Eval σ Unit) := by
  rintro run other ⟨host, cache, sink⟩
  unfold emit
  rw [sink]
  split
  · exact .ok ⟨host, cache, rfl⟩
  · exact .error ⟨host, cache, rfl⟩

theorem oblivious_call (compute : σ → Reply σ) : Oblivious (call compute) := by
  rintro run other ⟨host, cache, sink⟩
  unfold call
  rw [host]
  split
  · exact .ok ⟨rfl, cache, sink⟩
  · exact .error ⟨rfl, cache, sink⟩

theorem oblivious_locate (source : String) (span : Span) {step : Eval σ α}
    (h : Oblivious step) : Oblivious (locate source span step) := by
  intro run other agrees
  have same := h run other agrees
  unfold locate
  generalize step run = result, step other = result' at same
  cases same with
  | ok agrees => exact .ok agrees
  | error agrees => exact .error agrees

theorem oblivious_capture {step : Eval σ Unit} (h : Oblivious step) :
    Oblivious (capture step) := by
  rintro run other ⟨host, cache, sink⟩
  have same := h { run with sink := .unlimited } { other with sink := .unlimited }
    ⟨host, cache, rfl⟩
  unfold capture
  generalize step { run with sink := .unlimited } = result,
    step { other with sink := .unlimited } = result' at same
  cases same with
  | ok agrees =>
    dsimp only
    rw [agrees.sink]
    exact .ok ⟨agrees.host, agrees.cache, sink⟩
  | error agrees => exact .error ⟨agrees.host, agrees.cache, sink⟩

theorem oblivious_fragment (text : String) : Oblivious (fragment text : Eval σ Program) := by
  rintro run other ⟨host, cache, sink⟩
  unfold fragment
  rw [cache]
  split
  · exact .ok ⟨host, cache, sink⟩
  · exact .ok ⟨host, rfl, sink⟩

theorem oblivious_forEachPulled {step : Value σ → Eval σ Unit}
    (each : ∀ item, Oblivious (step item)) : (pull : Pull σ) → Oblivious (forEachPulled step pull)
  | .done host' => fun run other agrees => .ok ⟨rfl, agrees.cache, agrees.sink⟩
  | .failure host' error => fun run other agrees => .error ⟨rfl, agrees.cache, agrees.sink⟩
  | .member host' item next => by
    rintro run other ⟨_, cache, sink⟩
    have same := each item { run with host := host' } { other with host := host' }
      ⟨rfl, cache, sink⟩
    simp only [forEachPulled]
    generalize step item { run with host := host' } = result,
      step item { other with host := host' } = result' at same
    cases same with
    | @ok _ run' other' agrees =>
      dsimp only
      rw [agrees.host]
      exact oblivious_forEachPulled each (next other'.host) run' other' agrees
    | error agrees => exact .error agrees

/-- What is put together from such steps is one, too. -/
theorem oblivious_closed : Eval.Closed (fun {α} (step : Eval σ α) => Oblivious step) where
  pure := fun _ _ _ agrees => .ok agrees
  bind := oblivious_bind
  emit := oblivious_emit
  note := fun _ _ _ _ agrees => .ok ⟨agrees.host, agrees.cache, agrees.sink⟩
  raise := fun _ _ _ agrees => .error agrees
  call := oblivious_call
  locate := oblivious_locate
  capture := oblivious_capture
  fragment := oblivious_fragment
  forEachPulled := by
    intro step pull each run other agrees
    dsimp only
    rw [agrees.host]
    exact oblivious_forEachPulled each (pull other.host) run other agrees

end Eval

/-! ## Depths -/

namespace Level

/-- Without registered data, climbing agrees with the absolute path: a name that climbs out of some
segments ends in the same way as the name that leads from the root through the segments that are
left, with the same value, no value, or the same error, whatever the current value is. -/
theorem resolve_absolute {setting : Setting σ} (bare : setting.data = .empty) (depth : Nat)
    {segments : List String} (nonempty : segments ≠ [])
    (solid : ∀ segment ∈ segments, segment ≠ "" ∧ PointFree segment) {count : Nat}
    (climbing : 1 ≤ count) {rest : String} (stays : ¬ ['.', '.', '/'] <+: rest.toList)
    (current root : Value σ) (run : Run σ) :
    Eval.SameResult
      ((ofDepth setting depth).resolve ⟨current, Path.ofSegments segments, root⟩
        (Name.climb count rest) run)
      ((ofDepth setting depth).resolve (.atRoot root)
        (Path.ofSegments (segments.take (segments.length - count) ++ [rest])) run) := by
  have level_bare : (ofDepth setting depth).setting.data = .empty := by
    rw [setting_ofDepth, bare]
  have absolute := Eval.oblivious_closed.resolve setting depth (.atRoot root)
    (Path.ofSegments (segments.take (segments.length - count) ++ [rest]))
  rw [resolve_climbs level_bare nonempty solid rfl climbing stays]
  split
  · exact absolute _ run ⟨rfl, rfl, rfl⟩
  · exact absolute run run ⟨rfl, rfl, rfl⟩

/-- Climbing out of `b`, where `c` is a template that stands in for a member. -/
theorem resolve_absolute_template :
    let setting : Setting Unit := ⟨Table.empty.insert "c" (Program.compile "x").value, .empty, 64⟩
    let root : Value Unit := .map [("a", .map [("b", .integer 1)])]
    (Path.ofSegments ["a", "b"] = "a.b" ∧ Name.climb 1 "c" = "../c" ∧
        Path.ofSegments ["a", "c"] = "a.c") ∧
      ∀ run : Run Unit, Eval.SameResult
        ((ofDepth setting 1).resolve ⟨.integer 1, Path.ofSegments ["a", "b"], root⟩
          (Name.climb 1 "c") run)
        ((ofDepth setting 1).resolve (.atRoot root) (Path.ofSegments ["a", "c"]) run) :=
  ⟨by decide +kernel, fun run => resolve_absolute rfl 1 (by decide) (by decide) (Nat.le_refl 1)
    (by decide) _ _ run⟩

end Level

end Stencil
