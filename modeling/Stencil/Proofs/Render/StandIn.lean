import Stencil.Proofs.Render.Absolute
import Stencil.Proofs.Render.Iterate
import Stencil.Proofs.Render.Text

/-!
# Templates that stand in for members

Where a value has no member under a name, the template that is registered under that name stands
in. What the name leads to is the text that the template gives when it is rendered on the value, at
the path of the value, with one level less.

1. `Level.drill_of_drilled?`: what is there in plain data is found, whatever is registered.
2. `Level.resolve_standIn`: finding the value of such a name is to render the template privately.
3. `Engine.render_standIn`: a placeholder with such a name gives what the template gives.
-/

namespace Stencil

variable {σ : Type}

/-- What is there under some names is found there, if it is no empty list or map. -/
theorem Value.drilled?_of_descend? {owner value : Value σ} (full : value.isEmptyContainer = false)
    {names : List String} (present : owner.descend? names = some value) :
    owner.drilled? names = some value := by
  induction names generalizing owner with
  | nil => exact present
  | cons name names ih =>
    rw [descend?, List.foldlM_cons] at present
    obtain ⟨child, found, present⟩ := Option.bind_eq_some_iff.mp present
    have child_full : child.isEmptyContainer = false := by
      cases names with
      | nil =>
        cases present
        exact full
      | cons next names =>
        obtain ⟨inner, inner_found, _⟩ := Option.bind_eq_some_iff.mp present
        cases child with
        | list items => cases items <;> simp_all [isEmptyContainer, child?]
        | map entries => cases entries <;> simp_all [isEmptyContainer, child?]
        | _ => rfl
    have settled : owner.member? name = some child := by
      rw [member?, found, Option.map_some, Value.settled, child_full]
      rfl
    rw [drilled?_cons, settled]
    exact ih present

namespace Level

variable {level : Level σ}

/-- What is there in plain data is found, whatever is registered. -/
theorem drill_of_drilled? {owner : Context σ} (plain : owner.current.plain = true)
    {segments : List String} {value : Value σ}
    (found : owner.current.drilled? segments = some value) :
    level.drill owner segments = pure (some value) := by
  induction segments generalizing owner with
  | nil =>
    cases found
    rfl
  | cons segment segments ih =>
    rw [Value.drilled?_cons] at found
    obtain ⟨member, present, found⟩ := Option.bind_eq_some_iff.mp found
    rw [drill, member_of_child plain present, pure_bind]
    exact ih (Value.plain_member plain present) found

/-- What drilling finds is what is found. -/
theorem find_of_drill {context : Context σ} {segments : List String} {step : Eval σ (Value σ)}
    (drilled : level.drill context segments = some <$> step) :
    level.find context segments = some <$> step := by
  rw [find, drilled, map_eq_pure_bind, bind_assoc]
  simp only [pure_bind]

/-- A template stands in for a member of a value: the value is not null, it has no such member, and
the template is registered under the name. -/
structure StandsIn (level : Level σ) (owner : Value σ) (name : String) (program : Program) :
    Prop where
  present : owner.isNull = false
  absent : owner.child? name = none
  registered : level.setting.templates.find? name = some program

theorem StandsIn.member (owner : Context σ) {name : String} {program : Program}
    (standsIn : level.StandsIn owner.current name program) :
    level.member owner name = (some ∘ .text) <$> level.renderPrivately program owner := by
  rw [Level.member, standsIn.present, standsIn.absent, standsIn.registered]
  rfl

/-- A path through segments that are not empty is a name that does not climb. -/
theorem resolve_ofSegments (context : Context σ) {segments : List String} (nonempty : segments ≠ [])
    (solid : ∀ segment ∈ segments, segment ≠ "" ∧ PointFree segment) :
    level.resolve context (Path.ofSegments segments) = level.find context segments := by
  have split := segmentsOf_ofSegments nonempty fun segment mem => (solid segment mem).2
  have stays := climbs_of_solid nonempty solid (split.trans (List.append_nil _).symm)
  rw [resolve, Name.ofText_of_climbs_eq_zero stays, split]
  rfl

/-- A name through plain data to a value without the last member. -/
theorem resolve_standIn {root value : Value σ} (plain : root.plain = true)
    {segments : List String} {name : String}
    (solid : ∀ segment ∈ segments ++ [name], segment ≠ "" ∧ PointFree segment)
    (found : root.drilled? segments = some value) {program : Program}
    (standsIn : level.StandsIn value name program) :
    level.resolve (.atRoot root) (Path.ofSegments (segments ++ [name])) =
      (some ∘ .text) <$>
        level.renderPrivately program ⟨value, Path.ofSegments segments, root⟩ := by
  have joined : segments.foldl Path.join "" = Path.ofSegments segments :=
    Path.foldl_join fun segment mem => (solid segment (List.mem_append_left _ mem)).1
  have front : level.drill (.atRoot root) segments = pure (some value) :=
    drill_of_drilled? plain found
  have drilled : level.drill (.atRoot root) (segments ++ [name]) =
      some <$> Value.text <$>
        level.renderPrivately program ⟨value, Path.ofSegments segments, root⟩ := by
    rw [drill_append, front, pure_bind]
    show level.drill ⟨value, segments.foldl Path.join "", root⟩ [name] = _
    rw [joined, drill, standsIn.member]
    simp only [map_eq_pure_bind, bind_assoc, pure_bind, Function.comp_apply, drill]
  rw [resolve_ofSegments _ (by simp) solid, find_of_drill drilled]
  exact (comp_map _ _ _).symm

end Level

namespace Eval

/-- What is captured and then written by itself is what the step gives. -/
theorem gives_capture_emit (origin : Origin) (step : Eval σ Unit) {run : Run σ}
    (fresh : run.sink = .unlimited) :
    gives (capture step >>= fun text => emit origin text) run = gives step run := by
  have same : { run with sink := .unlimited } = run := by rw [← fresh]
  cases ran : step run with
  | ok result inner =>
    have captured : capture step run =
        .ok (textOf inner.sink.writes.toList) { inner with sink := run.sink } := by
      rw [capture, same, ran]
    rw [gives_of_ok ran, gives_congr (bind_of_ok captured _), fresh]
    simp [gives, emit, Sink.put?, Sink.unlimited, textOf, String.join]
  | error error inner =>
    have captured : capture step run = .error error { inner with sink := run.sink } := by
      rw [capture, same, ran]
    rw [gives_of_error ran, gives_of_error (bind_of_error captured _)]

end Eval

namespace Level

variable {level : Level σ}

/-- A placeholder that is neither escaped nor recursive writes the text of the template. -/
theorem placeholder_standIn {place : Place σ} {p : Placeholder} (raw : p.escape = false)
    (flat : p.recursive = false) {program : Program} {owner : Context σ}
    (resolved : level.resolve place.context p.name =
      (some ∘ .text) <$> level.renderPrivately program owner) :
    level.placeholder place p =
      level.renderPrivately program owner >>= fun text => Eval.emit .value text := by
  rw [placeholder, resolved, map_eq_pure_bind, bind_assoc]
  congr 1
  funext text
  rw [pure_bind, Function.comp_apply, raw, flat]
  rfl

end Level

namespace Engine

/-- What a placeholder gives whose name leads to a template that stands in: the same as the
template, rendered on the value with one level less. -/
theorem given_standIn (engine : Engine σ) {root value : Value σ} (plain : root.plain = true)
    {segments : List String} {name : String}
    (solid : ∀ segment ∈ segments ++ [name], segment ≠ "" ∧ PointFree segment)
    (found : root.drilled? segments = some value) (present : value.isNull = false)
    (absent : value.child? name = none) {program : Program}
    (registered : engine.templates.find? name = some program) (source : String) (span : Span)
    (keepUndefined : Bool) (limit : Nat) (host : σ) :
    (engine.render ⟨⟨source, [.placeholder
        ⟨Path.ofSegments (segments ++ [name]), false, false, span⟩]⟩, root, false, none,
        keepUndefined, some (limit + 1)⟩ .text host).given =
      (engine.render ⟨program, root, false, some ⟨value, Path.ofSegments segments, root⟩, false,
        some limit⟩ .text host).given := by
  let setting : Setting σ := ⟨engine.templates, engine.data, limit + 1⟩
  let level : Level σ := .ofDepth setting (limit + 1)
  let place : Place σ := ⟨source, keepUndefined, .atRoot root⟩
  let p : Placeholder := ⟨Path.ofSegments (segments ++ [name]), false, false, span⟩
  let owner : Context σ := ⟨value, Path.ofSegments segments, root⟩
  let step := renderBlocks setting limit ⟨program.source, false, owner⟩ program.blocks
  have standsIn : level.StandsIn value name program := ⟨present, absent, registered⟩
  have resolved : level.resolve place.context p.name =
      (some ∘ .text) <$> level.renderPrivately program owner :=
    Level.resolve_standIn plain solid found standsIn
  have privately : level.renderPrivately program owner = Eval.capture step :=
    Level.descend_bind_succ setting limit _
  have written : level.placeholder place p =
      Eval.capture step >>= fun text => Eval.emit .value text := by
    rw [Level.placeholder_standIn rfl rfl resolved, privately]
  have named : Eval.gives (renderBlocks setting (limit + 1) place [.placeholder p])
      (engine.begin .text host) = Eval.gives step (engine.begin .text host) := by
    rw [renderBlocks_eq, Eval.forM_singleton, Level.block, Eval.gives_locate]
    show Eval.gives (level.placeholder place p) _ = _
    rw [written, Eval.gives_capture_emit .value step rfl]
  rw [engine.given_render rfl, engine.given_render rfl]
  exact named.trans (Eval.gives_renderBlocks setting limit limit _ _ _).symm

/-- A registered template that is used as a member is that template, rendered on the value. A name
leads from the root through plain data to a value that is not empty, and goes on with the name of a
template that the value has no member for. The raw placeholder with this name gives a text if and
only if the template gives it when it is rendered from that value at its path, with one level less,
and one of the two ends at its limit if and only if the other does. -/
theorem render_standIn (engine : Engine σ) {root value : Value σ} (plain : root.plain = true)
    {segments : List String} {name : String}
    (solid : ∀ segment ∈ segments ++ [name], segment ≠ "" ∧ PointFree segment)
    (found : root.descend? segments = some value)
    (full : value.isNull = false ∧ value.isEmptyContainer = false)
    (absent : value.child? name = none) {program : Program}
    (registered : engine.templates.find? name = some program) (source : String) (span : Span)
    (keepUndefined : Bool) (limit : Nat) (host : σ) :
    let named := engine.render ⟨⟨source, [.placeholder
      ⟨Path.ofSegments (segments ++ [name]), false, false, span⟩]⟩, root, false, none,
      keepUndefined, some (limit + 1)⟩ .text host
    let direct := engine.render ⟨program, root, false,
      some ⟨value, Path.ofSegments segments, root⟩, false, some limit⟩ .text host
    (∀ text, named.text = .ok text ↔ direct.text = .ok text) ∧
      (named.ReachedLimit ↔ direct.ReachedLimit) := by
  intro named direct
  have drilled := Value.drilled?_of_descend? full.2 found
  have same : named.given = direct.given := engine.given_standIn plain solid drilled full.1 absent
    registered source span keepUndefined limit host
  constructor
  · intro text
    rw [Outcome.text_eq_ok_iff, Outcome.text_eq_ok_iff, same]
  · rw [Outcome.reachedLimit_iff, Outcome.reachedLimit_iff, same]

/-- The template stands in for a member of the second item of a list, and climbs out of the list.
Without a level to spare, both renders end at the limit. -/
theorem render_standIn_item :
    let source := "<\x7b\x7b../../b\x7d\x7d\x7b\x7bif n\x7d\x7d!\x7b\x7bend\x7d\x7d>"
    let program := (Program.compile source).value
    let engine : Engine Unit := (Engine.new.registerTemplate "t" source).value
    let value : Value Unit := .map [("n", .integer 1)]
    let root : Value Unit := .map [("a", .list [.null, value]), ("b", .text "&")]
    let named (limit : Nat) := engine.render ⟨⟨"", [.placeholder
      ⟨Path.ofSegments (["a", "1"] ++ ["t"]), false, false, ⟨0, 0⟩⟩]⟩, root, false, none, true,
      some (limit + 1)⟩ .text ()
    let direct (limit : Nat) := engine.render ⟨program, root, false,
      some ⟨value, Path.ofSegments ["a", "1"], root⟩, false, some limit⟩ .text ()
    ((named 0).text.toOption = none ∧ (named 1).text.toOption = some "<&amp;!>") ∧
      ∀ limit, (∀ text, (named limit).text = .ok text ↔ (direct limit).text = .ok text) ∧
        ((named limit).ReachedLimit ↔ (direct limit).ReachedLimit) := by
  intro source program engine value root named direct
  constructor
  · decide +kernel
  · intro limit
    exact engine.render_standIn rfl (by decide) rfl ⟨rfl, rfl⟩ rfl rfl "" ⟨0, 0⟩ true limit ()

end Engine

end Stencil
