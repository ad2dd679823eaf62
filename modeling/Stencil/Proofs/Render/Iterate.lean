import Stencil.Proofs.Render.Plain
import Stencil.Proofs.Render.Steps

/-!
# Iterations inside each other

1. `Context.enterAll`: the positions at which the innermost body is rendered.
2. `renderBlocks_nest`: iterations inside each other render the innermost body once at each of
   these positions, in order.
-/

namespace Stencil

variable {σ : Type}

namespace Context

/-- The positions at which the body of an iteration over a member of plain data is rendered. -/
def enter (context : Context σ) (name : String) : List (Context σ) :=
  ((context.current.member? name).elim [] Value.members).map fun item =>
    ⟨item, Path.item context.path name, context.root⟩

/-- The positions at which the innermost body of iterations inside each other is rendered. -/
def enterAll (context : Context σ) : List String → List (Context σ)
  | [] => [context]
  | name :: names => (context.enter name).flatMap fun inner => inner.enterAll names

theorem enterAll_concat (context : Context σ) (outer : List String) (name : String) :
    context.enterAll (outer ++ [name]) =
      (context.enterAll outer).flatMap fun holder => holder.enter name := by
  induction outer generalizing context with
  | nil => simp [enterAll]
  | cons first outer ih => simp only [List.cons_append, enterAll, ih, List.flatMap_assoc]

theorem mem_enter {context inner : Context σ} {name : String} :
    inner ∈ context.enter name ↔ ∃ collection, context.current.member? name = some collection ∧
      ∃ item ∈ collection.members, inner = ⟨item, Path.item context.path name, context.root⟩ := by
  unfold enter
  cases context.current.member? name with
  | none => simp
  | some collection => simp [eq_comm]

/-- What the positions in a body have in common. -/
theorem path_of_mem_enter {context inner : Context σ} {name : String}
    (mem : inner ∈ context.enter name) :
    inner.path = Path.item context.path name ∧ inner.root = context.root := by
  obtain ⟨_, _, item, _, rfl⟩ := mem_enter.mp mem
  exact ⟨rfl, rfl⟩

theorem plain_of_mem_enter {context inner : Context σ} (plain : context.current.plain = true)
    {name : String} (mem : inner ∈ context.enter name) : inner.current.plain = true := by
  obtain ⟨collection, found, item, item_mem, rfl⟩ := mem_enter.mp mem
  exact Value.plain_of_mem_members (Value.plain_member plain found) item_mem

end Context

/-! ## Steps in a row -/

namespace Eval

variable {α β : Type}

theorem locate_bind (source : String) (span : Span) (step : Eval σ α) (next : α → Eval σ β) :
    locate source span (step >>= next) =
      locate source span step >>= fun result => locate source span (next result) := by
  funext run
  cases ran : step run with
  | ok result run' =>
    have located : locate source span step run = .ok result run' := by rw [locate, ran]
    rw [bind_of_ok located, locate, bind_of_ok ran]
    rfl
  | error failure run' =>
    have located : locate source span step run = .error (failure.locate source span) run' := by
      rw [locate, ran]
    rw [bind_of_error located, locate, bind_of_error ran]

theorem forM_cons (item : α) (items : List α) (step : α → Eval σ Unit) :
    (item :: items).forM step = step item >>= fun _ => items.forM step := rfl

theorem forM_append (items more : List α) (step : α → Eval σ Unit) :
    (items ++ more).forM step = items.forM step >>= fun _ => more.forM step := by
  induction items with
  | nil => rfl
  | cons item items ih =>
    rw [List.cons_append, forM_cons, forM_cons, ih]
    exact (bind_assoc ..).symm

theorem forM_map (items : List α) (f : α → β) (step : β → Eval σ Unit) :
    (items.map f).forM step = items.forM fun item => step (f item) := by
  induction items with
  | nil => rfl
  | cons item items ih => rw [List.map_cons, forM_cons, forM_cons, ih]

theorem forM_flatMap (items : List α) (f : α → List β) (step : β → Eval σ Unit) :
    (items.flatMap f).forM step = items.forM fun item => (f item).forM step := by
  induction items with
  | nil => rfl
  | cons item items ih => rw [List.flatMap_cons, forM_append, forM_cons, ih]

theorem forM_congr {items : List α} {step step' : α → Eval σ Unit}
    (same : ∀ item ∈ items, step item = step' item) : items.forM step = items.forM step' := by
  induction items with
  | nil => rfl
  | cons item items ih =>
    rw [forM_cons, forM_cons, same item List.mem_cons_self,
      ih fun other mem => same other (List.mem_cons_of_mem _ mem)]

theorem forM_singleton (item : α) (step : α → Eval σ Unit) : [item].forM step = step item :=
  bind_pure_unit (x := step item)

theorem locate_forM (source : String) (span : Span) (items : List α) (step : α → Eval σ Unit) :
    locate source span (items.forM step) =
      items.forM fun item => locate source span (step item) := by
  induction items with
  | nil => rfl
  | cons item items ih => rw [forM_cons, forM_cons, locate_bind, ih]

/-- An iteration over plain data goes through its members. -/
theorem forEachMember_plain {value : Value σ} (plain : value.plain = true)
    (truthy : value.truthy = true) (step : Value σ → Eval σ Unit) :
    forEachMember value step = value.members.forM step := by
  cases value with
  | list items => rfl
  | map entries => exact (forM_map entries Prod.snd step).symm
  | computed id call => cases plain
  | collection id kind pull => cases plain
  | null => cases truthy
  | _ =>
    show step _ = List.forM (if _ = true then [_] else []) step
    rw [if_pos truthy, forM_singleton]

end Eval

/-! ## Rendering -/

/-- Iterations inside each other, with the spans of their tags, outermost first. -/
def Block.nest : List (String × Span) → List Block → List Block
  | [], inner => inner
  | (name, span) :: tags, inner => [.iteration name (nest tags inner) span]

theorem Block.nest_ne_nil (tags : List (String × Span)) {inner : List Block}
    (nonempty : inner ≠ []) : Block.nest tags inner ≠ [] := by
  cases tags with
  | nil => exact nonempty
  | cons tag tags => simp [Block.nest]

/-- Points the failures of a step to directives inside each other, outermost first. -/
def Eval.locateAll {α : Type} (source : String) (spans : List Span) (step : Eval σ α) : Eval σ α :=
  spans.foldr (Eval.locate source) step

/-- A setting in which nothing is registered. -/
structure Setting.Bare (setting : Setting σ) : Prop where
  templates : setting.templates = .empty
  data : setting.data = .empty

theorem Setting.Bare.plain {setting : Setting σ} (bare : setting.Bare) : setting.Plain := by
  refine ⟨bare.templates, ?_⟩
  rw [bare.data]
  intro entry mem
  cases mem

theorem Setting.Bare.found? {setting : Setting σ} (bare : setting.Bare) (value : Value σ)
    (segments : List String) : setting.found? value segments = value.drilled? segments := by
  have none_registered : setting.drilled? segments = none := by
    cases segments with
    | nil => rfl
    | cons segment segments =>
      rw [Setting.drilled?, bare.data, Table.find?_empty]
      rfl
  rw [Setting.found?, none_registered, Option.or_none]

namespace Level

variable {level : Level σ}

/-- A name that is not registered is that of a member, or of nothing. -/
theorem resolve_pointFree (setting : level.setting.Plain) {context : Context σ}
    (plain : context.current.plain = true) {name : String} (free : PointFree name)
    (unregistered : level.setting.data.find? name = none) :
    level.resolve context name = pure (context.current.member? name) := by
  have segments := segmentsOf_of_pointFree free
  have stays : (Name.ofText name).climbs = 0 := Name.climbs_eq_zero (by simp [segments])
  have none_registered : level.setting.drilled? [name] = none := by
    rw [Setting.drilled?, unregistered]
    rfl
  rw [resolve, Name.ofText_of_climbs_eq_zero stays, segments]
  have found := find_plain setting plain [name]
  rw [Setting.found?, none_registered, Option.or_none, Value.drilled?_singleton] at found
  exact found

/-- The body of an iteration is rendered at each position that it enters. -/
theorem iteration_plain (setting : level.setting.Plain) {body : Body σ}
    (below : level.below = some body) {place : Place σ}
    (plain : place.context.current.plain = true) {name : String} (free : PointFree name)
    (unregistered : level.setting.data.find? name = none) {inner : List Block}
    (nonempty : inner ≠ []) :
    level.iteration place name inner =
      (place.context.enter name).forM fun context => body { place with context } inner := by
  rw [iteration, resolve_pointFree setting plain free unregistered, pure_bind, Context.enter]
  cases found : place.context.current.member? name with
  | none => rfl
  | some collection =>
    have collection_plain := Value.plain_member plain found
    have some_inner : inner.isEmpty = false := by simpa using nonempty
    rw [Option.elim_some, Eval.forM_map]
    cases truthy : collection.truthy with
    | false =>
      rw [Value.members_eq_nil_of_not_truthy truthy]
      simp only [truthy, Bool.false_and]
      rfl
    | true =>
      simp only [truthy, some_inner, descend, below]
      exact Eval.forEachMember_plain collection_plain truthy _

end Level

/-- Iterations inside each other render the innermost body at each position that they enter, and
failures there point to the iterations around it. -/
theorem renderBlocks_nest {setting : Setting σ} (setting_plain : setting.Plain)
    {tags : List (String × Span)} (free : ∀ tag ∈ tags, PointFree tag.1)
    (unregistered : ∀ tag ∈ tags, setting.data.find? tag.1 = none) {inner : List Block}
    (nonempty : inner ≠ []) (depth : Nat) {place : Place σ}
    (plain : place.context.current.plain = true) :
    renderBlocks setting (tags.length + depth) place (Block.nest tags inner) =
      (place.context.enterAll (tags.map Prod.fst)).forM fun context =>
        Eval.locateAll place.source (tags.map Prod.snd)
          (renderBlocks setting depth { place with context } inner) := by
  induction tags generalizing place with
  | nil =>
    rw [List.length_nil, Nat.zero_add, Block.nest, List.map_nil, Context.enterAll,
      Eval.forM_singleton]
    rfl
  | cons tag tags ih =>
    obtain ⟨name, span⟩ := tag
    have height : ((name, span) :: tags).length + depth = tags.length + depth + 1 := by
      rw [List.length_cons]
      omega
    let level : Level σ := ⟨setting, some (renderBlocks setting (tags.length + depth))⟩
    have level_plain : level.setting.Plain := setting_plain
    have iterated := Level.iteration_plain level_plain rfl plain (free _ List.mem_cons_self)
      (unregistered _ List.mem_cons_self) (Block.nest_ne_nil tags nonempty)
    rw [height, renderBlocks, Block.nest, Eval.forM_singleton, Level.block, iterated,
      Eval.locate_forM, List.map_cons, Context.enterAll, Eval.forM_flatMap]
    refine Eval.forM_congr fun context mem => ?_
    rw [ih (fun tag mem => free tag (List.mem_cons_of_mem _ mem))
      (fun tag mem => unregistered tag (List.mem_cons_of_mem _ mem))
      (Context.plain_of_mem_enter plain mem), Eval.locate_forM]
    rfl

end Stencil
