import Stencil.Proofs.Render.Parts

/-!
# Renders compared

Two renders that are put together in the same way are related as soon as their single steps are.
What is known of all data that a render can find may be used for that.

1. `Eval.Sequential`, `Eval.Congruence`: a relation between steps that each single step has to
   itself, and that passes from parts to the whole, for finding values and for rendering.
2. `Level.Agree.resolve`: finding a value at one level is related to finding it at another one,
   where the templates that stand in for members are.
3. `Level.Related.forM_block`: so is rendering blocks, where rendering one level further down is.
-/

namespace Stencil

variable {σ : Type}

/-! ## What is known of data -/

/-- The data in the result of a step. -/
class Carries (σ : Type) (α : Type) where
  values : α → List (Value σ)

instance : Carries σ Unit := ⟨fun _ => []⟩
instance : Carries σ Bool := ⟨fun _ => []⟩
instance : Carries σ String := ⟨fun _ => []⟩
instance : Carries σ Program := ⟨fun _ => []⟩
instance : Carries σ (Value σ) := ⟨fun value => [value]⟩
instance : Carries σ (Option (Value σ)) := ⟨Option.toList⟩

/-- What is known of data is known of all data in the result of a step. -/
def Carries.All {α : Type} [Carries σ α] (V : Value σ → Prop) (result : α) : Prop :=
  ∀ value ∈ values result, V value

structure Context.All (V : Value σ → Prop) (context : Context σ) : Prop where
  current : V context.current
  root : V context.root

/-- What is known of data is known of the members of lists and maps, and of what a render makes
itself. -/
structure Value.Hereditary (V : Value σ → Prop) : Prop where
  null : V .null
  text : ∀ content, V (.text content)
  item : ∀ {items item}, V (.list items) → item ∈ items → V item
  entry : ∀ {entries entry}, V (.map entries) → entry ∈ entries → V entry.2

theorem Value.Hereditary.child {V : Value σ → Prop} (hereditary : Value.Hereditary V)
    {owner value : Value σ} (known : V owner) {name : String}
    (found : owner.child? name = some value) : V value := by
  unfold Value.child? at found
  split at found
  · obtain ⟨front, rest, same, _⟩ := List.lookup_eq_some_iff.mp found
    have mem := List.mem_append_right front (List.mem_cons_self (a := (name, value)) (l := rest))
    rw [← same] at mem
    exact hereditary.entry known mem
  · obtain ⟨position, _, found⟩ := Option.bind_eq_some_iff.mp found
    exact hereditary.item known (List.mem_of_getElem? found)
  · cases found

/-! ## Steps -/

/-- A relation between steps that each single step of finding values has to itself, and that passes
from a step and the next one to both. `V` is known of all data that comes up. -/
structure Eval.Sequential (V : Value σ → Prop)
    (R : {α : Type} → [Carries σ α] → Eval σ α → Eval σ α → Prop) : Prop
    extends Value.Hereditary V where
  pure : ∀ {α : Type} [Carries σ α] (result : α), Carries.All V result →
    R (Pure.pure result) (Pure.pure result)
  bind : ∀ {α β : Type} [Carries σ α] [Carries σ β] {step step' : Eval σ α}
    {next next' : α → Eval σ β}, R step step' →
    (∀ result, Carries.All V result → R (next result) (next' result)) →
    R (step >>= next) (step' >>= next')
  note : ∀ name path,
    R (Eval.note (.climbsAboveRoot name path)) (Eval.note (.climbsAboveRoot name path))
  call : ∀ {id compute}, V (.computed id compute) → R (Eval.call compute) (Eval.call compute)

/-- A relation between steps that each single step of a render has to itself, and that passes to
what is put together from steps. -/
structure Eval.Congruence (V : Value σ → Prop)
    (R : {α : Type} → [Carries σ α] → Eval σ α → Eval σ α → Prop) : Prop
    extends Eval.Sequential V R where
  emit : ∀ origin text, R (Eval.emit origin text) (Eval.emit origin text)
  locate : ∀ source span {step step' : Eval σ Unit}, R step step' →
    R (Eval.locate source span step) (Eval.locate source span step')
  capture : ∀ {step step' : Eval σ Unit}, R step step' → R (Eval.capture step) (Eval.capture step')
  fragment : ∀ text, R (Eval.fragment text) (Eval.fragment text)
  forEachPulled : ∀ {id kind pull} {step step' : Value σ → Eval σ Unit},
    V (.collection id kind pull) → (∀ item, V item → R (step item) (step' item)) →
    R (fun run => Eval.forEachPulled step (pull run.host) run)
      (fun run => Eval.forEachPulled step' (pull run.host) run)

variable {V : Value σ → Prop} {R : {α : Type} → [Carries σ α] → Eval σ α → Eval σ α → Prop}

namespace Eval.Sequential

variable (sequential : Eval.Sequential V R)
include sequential

theorem done : R (Pure.pure () : Eval σ Unit) (Pure.pure ()) :=
  sequential.pure () fun _ mem => nomatch mem

theorem nothing : R (Pure.pure none : Eval σ (Option (Value σ))) (Pure.pure none) :=
  sequential.pure none fun _ mem => nomatch mem

theorem map {α β : Type} [Carries σ α] [Carries σ β] {f : α → β} {step step' : Eval σ α}
    (related : R step step')
    (known : ∀ result, Carries.All V result → Carries.All V (f result)) :
    R (f <$> step) (f <$> step') := by
  rw [map_eq_pure_bind, map_eq_pure_bind]
  exact sequential.bind related fun result all => sequential.pure _ (known result all)

theorem settle {value : Value σ} (known : V value) :
    R (Level.settle value) (Level.settle value) := by
  have settled : ∀ result : Value σ, Carries.All V result →
      R (Pure.pure (if result.isEmptyContainer then .null else result) : Eval σ (Value σ))
        (Pure.pure (if result.isEmptyContainer then .null else result)) := by
    intro result all
    refine sequential.pure _ fun value mem => ?_
    rw [List.mem_singleton.mp mem]
    split
    · exact sequential.null
    · exact all result List.mem_cons_self
  cases value with
  | computed id compute => exact sequential.bind (sequential.call known) settled
  | _ =>
    refine sequential.bind (sequential.pure _ fun value mem => ?_) settled
    rwa [List.mem_singleton.mp mem]

end Eval.Sequential

namespace Eval.Congruence

variable (congruence : Eval.Congruence V R)
include congruence

theorem forM {α : Type} (items : List α) {step step' : α → Eval σ Unit}
    (each : ∀ item ∈ items, R (step item) (step' item)) :
    R (items.forM step) (items.forM step') := by
  induction items with
  | nil => exact congruence.done
  | cons item items ih =>
    show R (step item >>= fun _ => items.forM step) (step' item >>= fun _ => items.forM step')
    refine congruence.bind (each item List.mem_cons_self) fun _ _ => ?_
    exact ih fun other mem => each other (List.mem_cons_of_mem _ mem)

theorem forEachMember {value : Value σ} (known : V value) {step step' : Value σ → Eval σ Unit}
    (each : ∀ item, V item → R (step item) (step' item)) :
    R (Eval.forEachMember value step) (Eval.forEachMember value step') := by
  cases value with
  | list items => exact congruence.forM items fun item mem => each item (congruence.item known mem)
  | map entries =>
    exact congruence.forM entries fun entry mem => each entry.2 (congruence.entry known mem)
  | collection id kind pull => exact congruence.forEachPulled known each
  | _ => exact each _ known

end Eval.Congruence

namespace Level

/-! ## Finding values -/

/-- Two levels with the same things registered, where the texts of the templates that stand in for
members are related. -/
structure Agree (V : Value σ → Prop)
    (R : {α : Type} → [Carries σ α] → Eval σ α → Eval σ α → Prop) (level level' : Level σ) :
    Prop where
  templates : level'.setting.templates = level.setting.templates
  data : level'.setting.data = level.setting.data
  registered : ∀ name value, level.setting.data.find? name = some value → V value
  standIn : ∀ name program, level.setting.templates.find? name = some program →
    ∀ context : Context σ, context.All V →
      R (level.renderPrivately program context) (level'.renderPrivately program context)

namespace Agree

variable {level level' : Level σ}

theorem member (agree : Agree V R level level') (sequential : Eval.Sequential V R)
    {owner : Context σ} (known : owner.All V) (name : String) :
    R (level.member owner name) (level'.member owner name) := by
  unfold Level.member
  rw [agree.templates]
  split
  · exact sequential.nothing
  · split
    · next value found =>
      exact sequential.map (sequential.settle (sequential.child known.current found))
        fun _ all => all
    · split
      · next program found =>
        refine sequential.map (agree.standIn name program found owner known) fun text _ => ?_
        intro value mem
        rw [List.mem_singleton.mp mem]
        exact sequential.text text
      · exact sequential.nothing

theorem drill (agree : Agree V R level level') (sequential : Eval.Sequential V R)
    {owner : Context σ} (known : owner.All V) (segments : List String) :
    R (level.drill owner segments) (level'.drill owner segments) := by
  induction segments generalizing owner with
  | nil =>
    refine sequential.pure _ fun value mem => ?_
    rw [List.mem_singleton.mp mem]
    exact known.current
  | cons segment segments ih =>
    refine sequential.bind (agree.member sequential known segment) fun found all => ?_
    cases found with
    | none => exact sequential.nothing
    | some value => exact ih ⟨all value List.mem_cons_self, known.root⟩

theorem drillData (agree : Agree V R level level') (sequential : Eval.Sequential V R)
    {root : Value σ} (known : V root) (segments : List String) :
    R (level.drillData root segments) (level'.drillData root segments) := by
  cases segments with
  | nil => exact sequential.nothing
  | cons segment segments =>
    rw [Level.drillData, Level.drillData, agree.data]
    split
    · exact sequential.nothing
    · next value found =>
      refine sequential.bind (sequential.settle (agree.registered _ _ found)) fun settled all => ?_
      exact agree.drill sequential ⟨all settled List.mem_cons_self, known⟩ _

theorem find (agree : Agree V R level level') (sequential : Eval.Sequential V R)
    {context : Context σ} (known : context.All V) (segments : List String) :
    R (level.find context segments) (level'.find context segments) := by
  refine sequential.bind (agree.drill sequential known segments) fun found all => ?_
  cases found with
  | some value => exact sequential.pure _ all
  | none => exact agree.drillData sequential known.root segments

theorem resolveAtRoot (agree : Agree V R level level') (sequential : Eval.Sequential V R)
    {root : Value σ} (known : V root) (text : String) :
    R (level.resolveAtRoot root text) (level'.resolveAtRoot root text) := by
  have at_root : (Context.atRoot root).All V := ⟨known, known⟩
  unfold Level.resolveAtRoot
  dsimp only
  split
  · exact agree.find sequential at_root _
  · split
    · exact sequential.bind (sequential.note _ _) fun _ _ => agree.drill sequential at_root _
    · exact agree.drill sequential at_root _

/-- What is read from an ancestor, which is read like a name at the root. -/
theorem climb (agree : Agree V R level level') (sequential : Eval.Sequential V R)
    {root : Value σ} (known : V root) (path : String) (segments : List String) :
    R (level.resolveAtRoot root path >>= fun found =>
        match found with
        | none => pure none
        | some ancestor => level.drill ⟨ancestor, path, root⟩ segments)
      (level'.resolveAtRoot root path >>= fun found =>
        match found with
        | none => pure none
        | some ancestor => level'.drill ⟨ancestor, path, root⟩ segments) := by
  refine sequential.bind (agree.resolveAtRoot sequential known path) fun found all => ?_
  cases found with
  | none => exact sequential.nothing
  | some ancestor =>
    have placed : (⟨ancestor, path, root⟩ : Context σ).All V :=
      ⟨all ancestor List.mem_cons_self, known⟩
    exact agree.drill sequential placed segments

theorem resolve (agree : Agree V R level level') (sequential : Eval.Sequential V R)
    {context : Context σ} (known : context.All V) (text : String) :
    R (level.resolve context text) (level'.resolve context text) := by
  have at_root : (Context.atRoot context.root).All V := ⟨known.root, known.root⟩
  unfold Level.resolve
  dsimp only
  split
  · exact agree.find sequential known _
  · split
    · refine sequential.bind (sequential.note _ _) fun _ _ => ?_
      split
      · exact agree.drill sequential at_root _
      · exact agree.climb sequential known.root _ _
    · split
      · exact agree.drill sequential at_root _
      · exact agree.climb sequential known.root _ _

end Agree

/-! ## Rendering blocks -/

/-- Two levels with the same things registered. Whatever is done with the next level down is
related, if it is related wherever rendering there is. -/
structure Related (V : Value σ → Prop)
    (R : {α : Type} → [Carries σ α] → Eval σ α → Eval σ α → Prop) (level level' : Level σ) :
    Prop where
  templates : level'.setting.templates = level.setting.templates
  data : level'.setting.data = level.setting.data
  registered : ∀ name value, level.setting.data.find? name = some value → V value
  descend : ∀ {α : Type} [Carries σ α] {next next' : Body σ → Eval σ α},
    (∀ body body' : Body σ, (∀ place blocks, place.context.All V →
      R (body place blocks) (body' place blocks)) → R (next body) (next' body')) →
    R (level.descend >>= next) (level'.descend >>= next')

namespace Related

variable {level level' : Level σ}

theorem agree (related : Related V R level level') (congruence : Eval.Congruence V R) :
    Agree V R level level' where
  templates := related.templates
  data := related.data
  registered := related.registered
  standIn := fun _ _ _ _ known => related.descend fun _ _ rendered =>
    congruence.capture (rendered _ _ known)

theorem write (related : Related V R level level') (congruence : Eval.Congruence V R)
    {place : Place σ} (known : place.context.All V) (p : Placeholder) (value : Value σ) :
    R (level.write place p value) (level'.write place p value) := by
  unfold Level.write
  split
  · refine related.descend fun _ _ rendered => ?_
    exact congruence.bind (congruence.fragment _) fun _ _ => rendered _ _ known
  · exact congruence.emit _ _

theorem placeholder (related : Related V R level level') (congruence : Eval.Congruence V R)
    {place : Place σ} (known : place.context.All V) (p : Placeholder) :
    R (level.placeholder place p) (level'.placeholder place p) := by
  rw [placeholder_eq, placeholder_eq]
  refine congruence.bind ((related.agree congruence).resolve congruence.toSequential known p.name)
    fun found _ => ?_
  cases found with
  | none =>
    dsimp only
    split
    · exact congruence.emit _ _
    · exact congruence.done
  | some value =>
    dsimp only
    split
    · exact congruence.done
    · exact related.write congruence known p value

theorem holds (related : Related V R level level') (congruence : Eval.Congruence V R)
    {context : Context σ} (known : context.All V) (recursive : Bool) (value : Value σ) :
    R (level.holds context recursive value) (level'.holds context recursive value) := by
  have decided : ∀ selected : Bool,
      R (Pure.pure selected : Eval σ Bool) (Pure.pure selected) :=
    fun selected => congruence.pure selected fun _ mem => nomatch mem
  unfold Level.holds
  split
  · split
    · refine related.descend fun _ _ rendered => ?_
      refine congruence.bind (congruence.fragment _) fun _ _ => ?_
      exact congruence.bind (congruence.capture (rendered _ _ known)) fun _ _ => decided _
    · exact decided _
  · exact decided _

theorem decision (related : Related V R level level') (congruence : Eval.Congruence V R)
    {context : Context σ} (known : context.All V) (name : String) (recursive : Bool) :
    R (level.decision context name recursive) (level'.decision context name recursive) := by
  refine congruence.bind ((related.agree congruence).resolve congruence.toSequential known name)
    fun found _ => ?_
  cases found with
  | none => exact congruence.pure false fun _ mem => nomatch mem
  | some value => exact related.holds congruence known recursive value

theorem branch (related : Related V R level level') (congruence : Eval.Congruence V R)
    {place : Place σ} (known : place.context.All V) (blocks : List Block) :
    R (level.branch place blocks) (level'.branch place blocks) := by
  unfold Level.branch
  split
  · exact congruence.done
  · exact related.descend fun _ _ rendered => rendered _ _ known

theorem condition (related : Related V R level level') (congruence : Eval.Congruence V R)
    {place : Place σ} (known : place.context.All V) (name : String) (recursive : Bool)
    (yes no : List Block) :
    R (level.condition place name recursive yes no)
      (level'.condition place name recursive yes no) := by
  rw [condition_eq, condition_eq]
  exact congruence.bind (related.decision congruence known name recursive) fun _ _ =>
    related.branch congruence known _

theorem iteration (related : Related V R level level') (congruence : Eval.Congruence V R)
    {place : Place σ} (known : place.context.All V) (name : String) (inner : List Block) :
    R (level.iteration place name inner) (level'.iteration place name inner) := by
  refine congruence.bind ((related.agree congruence).resolve congruence.toSequential known name)
    fun found all => ?_
  cases found with
  | none => exact congruence.done
  | some value =>
    dsimp only
    split
    · refine related.descend fun _ _ rendered => ?_
      refine congruence.forEachMember (all value List.mem_cons_self) fun item item_known => ?_
      exact rendered _ _ ⟨item_known, known.root⟩
    · exact congruence.done

theorem block (related : Related V R level level') (congruence : Eval.Congruence V R)
    {place : Place σ} (known : place.context.All V) (block : Block) :
    R (level.block place block) (level'.block place block) := by
  cases block with
  | text content span => exact congruence.emit _ _
  | placeholder p => exact congruence.locate _ _ (related.placeholder congruence known p)
  | condition name recursive yes no span =>
    exact congruence.locate _ _ (related.condition congruence known name recursive yes no)
  | iteration name inner span =>
    exact congruence.locate _ _ (related.iteration congruence known name inner)

/-- Rendering blocks is related, where rendering one level further down is. -/
theorem forM_block (related : Related V R level level') (congruence : Eval.Congruence V R)
    {place : Place σ} (known : place.context.All V) (blocks : List Block) :
    R (blocks.forM (level.block place)) (blocks.forM (level'.block place)) :=
  congruence.forM blocks fun block _ => related.block congruence known block

end Related

end Level

/-! ## Depths -/

/-- The level where so many further levels may be opened. -/
def Level.ofDepth (setting : Setting σ) : Nat → Level σ
  | 0 => ⟨setting, none⟩
  | depth + 1 => ⟨setting, some (renderBlocks setting depth)⟩

/-- Blocks are rendered at these levels. -/
theorem renderBlocks_eq (setting : Setting σ) (depth : Nat) (place : Place σ)
    (blocks : List Block) :
    renderBlocks setting depth place blocks =
      blocks.forM ((Level.ofDepth setting depth).block place) := by
  cases depth <;> rfl

namespace Level

theorem setting_ofDepth (setting : Setting σ) (depth : Nat) :
    (ofDepth setting depth).setting = setting := by
  cases depth <;> rfl

/-- At the limit, whatever would be done one level further down fails. -/
theorem descend_bind_zero {α : Type} (setting : Setting σ) (next : Body σ → Eval σ α) :
    (ofDepth setting 0).descend >>= next = Eval.raise (.maxDepth setting.maxDepth) := rfl

theorem descend_bind_succ {α : Type} (setting : Setting σ) (depth : Nat)
    (next : Body σ → Eval σ α) :
    (ofDepth setting (depth + 1)).descend >>= next = next (renderBlocks setting depth) :=
  pure_bind _ _

/-- Rendering blocks is related, where the levels are. -/
theorem Related.renderBlocks {setting setting' : Setting σ} {depth depth' : Nat}
    (related : Related V R (ofDepth setting depth) (ofDepth setting' depth'))
    (congruence : Eval.Congruence V R) {place : Place σ} (known : place.context.All V)
    (blocks : List Block) :
    R (Stencil.renderBlocks setting depth place blocks)
      (Stencil.renderBlocks setting' depth' place blocks) := by
  rw [renderBlocks_eq, renderBlocks_eq]
  exact related.forM_block congruence known blocks

end Level

end Stencil
