import Stencil.Proofs.Outline.Compiled
import Stencil.Proofs.Render.Plain
import Stencil.Proofs.Render.Sound

/-!
# Levels of compiled templates

A compiled template never holds more than `maxNesting` directives in one another. Without templates
that stand in for members, and without recursive directives, a render opens a level for each of
those and no others. So with plain data it cannot end at a limit of at least `maxNesting`.

1. `Block.Fits`: blocks without recursion that open at most so many levels.
2. `renderBlocks_succeeds`: such blocks are rendered to their end.
3. `Engine.render_compiled`: so is a compiled template.
-/

namespace Stencil

variable {σ : Type}

namespace Block

def isRecursive : Block → Bool
  | .text .. | .iteration .. => false
  | .placeholder p => p.recursive
  | .condition _ recursive _ _ _ => recursive

/-- Blocks that open at most so many levels in one another, and hold no recursive ones. -/
structure Fits (depth : Nat) (blocks : List Block) : Prop where
  levels : levelsList blocks ≤ 3 * (depth + 1)
  flat : ∀ head ∈ headsList blocks, head.isRecursive = false

theorem three_le_levelsList {blocks : List Block} (nonempty : blocks ≠ []) :
    3 ≤ levelsList blocks := by
  cases blocks with
  | nil => exact absurd rfl nonempty
  | cons block rest =>
    rw [levelsList, levels_eq]
    omega

namespace Fits

variable {depth : Nat} {block : Block} {blocks inner : List Block}

theorem head (fits : Fits depth (block :: blocks)) : Fits depth [block] where
  levels := by
    have bound := fits.levels
    rw [levelsList] at bound ⊢
    exact Nat.max_le.mpr ⟨(Nat.max_le.mp bound).1, Nat.zero_le _⟩
  flat := fun head mem => by
    rw [headsList_singleton] at mem
    exact fits.flat head (List.mem_append_left _ mem)

theorem tail (fits : Fits depth (block :: blocks)) : Fits depth blocks where
  levels := by
    have bound := fits.levels
    rw [levelsList] at bound
    exact (Nat.max_le.mp bound).2
  flat := fun head mem => fits.flat head (List.mem_append_right _ mem)

/-- What a directive holds is one level down, if there is anything. -/
theorem inside (fits : Fits depth [block]) (within : levelsList inner + 3 ≤ block.levels)
    (subset : headsList inner ⊆ block.heads) (nonempty : inner ≠ []) :
    ∃ depth', depth = depth' + 1 ∧ Fits depth' inner := by
  have bound := fits.levels
  rw [levelsList, levelsList, Nat.max_eq_left (Nat.zero_le _)] at bound
  have least := three_le_levelsList nonempty
  cases depth with
  | zero => omega
  | succ depth =>
    refine ⟨depth, rfl, by omega, fun head mem => fits.flat head ?_⟩
    rw [headsList_singleton]
    exact subset mem

end Fits

end Block

/-- A step that does not fail where the output takes everything, and finds plain data. -/
abbrev Eval.Succeeds {α : Type} [Carries σ α] (step : Eval σ α) : Prop :=
  Sound (fun _ => False) step

namespace Eval

theorem succeeds_congruence :
    Eval.Congruence (@Value.IsPlain σ) fun step _ => Succeeds step :=
  sound_congruence fun _ _ _ => id

theorem succeeds_locate (source : String) (span : Span) {step : Eval σ Unit}
    (succeeds : Succeeds step) : Succeeds (locate source span step) :=
  sound_locate (fun _ _ _ => id) source span succeeds

theorem succeeds_forEachMember {value : Value σ} (plain : value.plain = true)
    {step : Value σ → Eval σ Unit}
    (each : ∀ item : Value σ, item.plain = true → Succeeds (step item)) :
    Succeeds (forEachMember value step) :=
  @Congruence.forEachMember σ Value.IsPlain (fun step _ => Succeeds step) succeeds_congruence value
    plain step step each

end Eval

namespace Level

variable {setting : Setting σ} {depth : Nat} {place : Place σ}

theorem succeeds_resolve (plain : setting.Plain) {context : Context σ}
    (known : context.All Value.IsPlain) (text : String) :
    Eval.Succeeds ((ofDepth setting depth).resolve context text) := by
  have agree : Agree Value.IsPlain (fun step _ => Eval.Succeeds step)
      (ofDepth setting depth) (ofDepth setting depth) := by
    refine ⟨rfl, rfl, ?_, ?_⟩
    · rw [setting_ofDepth]
      exact fun _ _ found => Setting.plain_of_find plain found
    · rw [setting_ofDepth, plain.templates]
      exact fun _ _ found => nomatch found
  exact agree.resolve Eval.succeeds_congruence.toSequential known text

/-- A condition that is not recursive renders nothing to be decided. -/
theorem holds_of_flat (level : Level σ) (context : Context σ) (value : Value σ) :
    level.holds context false value = pure value.truthy := by
  cases value <;> rfl

theorem succeeds_placeholder (plain : setting.Plain) (known : place.context.All Value.IsPlain)
    (p : Placeholder) (flat : p.recursive = false) :
    Eval.Succeeds ((ofDepth setting depth).placeholder place p) := by
  refine Eval.sound_bind (succeeds_resolve plain known p.name) fun found _ => ?_
  split
  · split
    · exact Eval.sound_emit _ _
    · exact Eval.sound_done
  · exact Eval.sound_done
  · dsimp only
    rw [flat, Bool.false_and]
    exact Eval.sound_emit _ _

section

variable (below : ∀ depth', depth = depth' + 1 → ∀ (place : Place σ) (blocks : List Block),
  place.context.All Value.IsPlain → Block.Fits depth' blocks →
    Eval.Succeeds (renderBlocks setting depth' place blocks))
include below

/-- A directive renders what it holds one level further down, which is not too deep. -/
theorem succeeds_inner {block : Block} (fits : Block.Fits depth [block]) {inner : List Block}
    (within : Block.levelsList inner + 3 ≤ block.levels)
    (subset : Block.headsList inner ⊆ block.heads) (nonempty : inner ≠ [])
    {next : Body σ → Eval σ Unit}
    (rendered : ∀ body : Body σ, (∀ place : Place σ, place.context.All Value.IsPlain →
      Eval.Succeeds (body place inner)) → Eval.Succeeds (next body)) :
    Eval.Succeeds ((ofDepth setting depth).descend >>= next) := by
  obtain ⟨depth', rfl, inner_fits⟩ := fits.inside within subset nonempty
  rw [descend_bind_succ]
  exact rendered _ fun place known => below depth' rfl place inner known inner_fits

variable (known : place.context.All Value.IsPlain)
include known

theorem succeeds_branch {blocks : List Block} {block : Block} (fits : Block.Fits depth [block])
    (within : Block.levelsList blocks + 3 ≤ block.levels)
    (subset : Block.headsList blocks ⊆ block.heads) :
    Eval.Succeeds ((ofDepth setting depth).branch place blocks) := by
  unfold Level.branch
  split
  · exact Eval.sound_done
  · next nonempty =>
    refine succeeds_inner below fits within subset (fun nothing => ?_) fun body inner =>
      inner _ known
    exact nonempty (by rw [nothing]; rfl)

variable (plain : setting.Plain)
include plain

theorem succeeds_condition {name : String} {yes no : List Block} {span : Span}
    (fits : Block.Fits depth [.condition name false yes no span]) :
    Eval.Succeeds ((ofDepth setting depth).condition place name false yes no) := by
  have within (selected : Bool) : Block.levelsList (if selected then yes else no) + 3 ≤
      Block.levels (.condition name false yes no span) := by
    rw [Block.levels]
    cases selected with
    | false => exact Nat.add_le_add_right (Nat.le_max_right _ _) 3
    | true => exact Nat.add_le_add_right (Nat.le_max_left _ _) 3
  have branch (selected : Bool) :=
    succeeds_branch below known fits (within selected) (Block.headsList_branch_subset selected)
  rw [condition_eq, decision, bind_assoc]
  refine Eval.sound_bind (succeeds_resolve plain known name) fun found _ => ?_
  cases found with
  | none => exact branch false
  | some value =>
    dsimp only
    rw [holds_of_flat, pure_bind]
    exact branch value.truthy

theorem succeeds_iteration {name : String} {inner : List Block} {span : Span}
    (fits : Block.Fits depth [.iteration name inner span]) :
    Eval.Succeeds ((ofDepth setting depth).iteration place name inner) := by
  refine Eval.sound_bind (succeeds_resolve plain known name) fun found all => ?_
  cases found with
  | none => exact Eval.sound_done
  | some value =>
    dsimp only
    split
    · next opened =>
      have nonempty : inner ≠ [] := by
        rintro rfl
        rw [Bool.and_eq_true] at opened
        cases opened.2
      refine succeeds_inner below fits (Nat.le_refl _) Block.headsList_body_subset nonempty
        fun body rendered => ?_
      refine Eval.succeeds_forEachMember (all value List.mem_cons_self) fun item item_plain => ?_
      exact rendered _ ⟨item_plain, known.root⟩
    · exact Eval.sound_done

theorem succeeds_block {block : Block} (fits : Block.Fits depth [block]) :
    Eval.Succeeds ((ofDepth setting depth).block place block) := by
  cases block with
  | text content span => exact Eval.sound_emit _ _
  | placeholder p =>
    have flat : p.recursive = false := fits.flat (.placeholder p) List.mem_cons_self
    exact Eval.succeeds_locate _ _ (succeeds_placeholder plain known p flat)
  | condition name recursive yes no span =>
    obtain rfl : recursive = false := fits.flat _ List.mem_cons_self
    exact Eval.succeeds_locate _ _ (succeeds_condition below known plain fits)
  | iteration name inner span =>
    exact Eval.succeeds_locate _ _ (succeeds_iteration below known plain fits)

theorem succeeds_forM_block {blocks : List Block} (fits : Block.Fits depth blocks) :
    Eval.Succeeds (blocks.forM ((ofDepth setting depth).block place)) := by
  induction blocks with
  | nil => exact Eval.sound_done
  | cons block rest ih =>
    exact Eval.sound_bind (succeeds_block below known plain fits.head) fun _ _ => ih fits.tail

end

end Level

/-- Blocks that open no more levels than are left are rendered to their end. -/
theorem renderBlocks_succeeds {setting : Setting σ} (plain : setting.Plain) {depth : Nat}
    {place : Place σ} (known : place.context.All Value.IsPlain) {blocks : List Block}
    (fits : Block.Fits depth blocks) :
    Eval.Succeeds (renderBlocks setting depth place blocks) := by
  induction depth using Nat.strongRecOn generalizing place blocks with
  | ind depth ih =>
    rw [renderBlocks_eq]
    refine Level.succeeds_forM_block (fun depth' deeper place blocks known fits => ?_) known plain
      fits
    exact ih depth' (by omega) known fits

namespace Engine

/-- A compiled template without recursive directives gives a text from plain data, where at least
`maxNesting` levels may be open and no templates are registered. -/
theorem render_compiled (engine : Engine σ) (job : Job σ) (host : σ) {source : String}
    (compiled : job.program = (Program.compile source).value)
    (flat : ∀ head ∈ Block.headsList (Program.compile source).value.blocks,
      head.isRecursive = false)
    (bare : engine.templates = .empty) (registered : engine.data.Plain) (plain : job.Plain)
    (limit : maxNesting ≤ job.maxDepth.getD engine.maxDepth) :
    ∃ text, (engine.render job .text host).text = .ok text := by
  have fits : Block.Fits (job.maxDepth.getD engine.maxDepth) job.program.blocks := by
    rw [compiled]
    refine ⟨Nat.le_trans (Program.levelsList_compile_le source) ?_, flat⟩
    exact Nat.mul_le_mul_left 3 (Nat.succ_le_succ limit)
  obtain ⟨data, data_plain, ready⟩ := plain.prepared host
  have setting : (engine.setting job).Plain := ⟨bare, registered⟩
  have succeeds : Eval.Succeeds (engine.run job (job.start data)) :=
    renderBlocks_succeeds setting (plain.start data_plain) fits
  rw [engine.render_of_ok .text ready]
  rcases succeeds (engine.begin .text host) rfl with ⟨_, run, ran, _⟩ | ⟨_, _, _, impossible⟩
  · rw [ran]
    exact ⟨_, rfl⟩
  · exact impossible.elim

/-- The stray end, the missing end and the unbalanced tag open no levels. -/
theorem render_compiled_malformed :
    let source := "\x7b\x7bend\x7d\x7d\x7b\x7bif a\x7d\x7d\x7b\x7bforeach a\x7d\x7d\x7b\x7bb\x7d"
    let program := (Program.compile source).value
    let job : Job Unit := ⟨program, .map [("a", .list [.null, .null])], false, none, false, some 32⟩
    ((∀ head ∈ Block.headsList program.blocks, head.isRecursive = false) ∧ job.Plain ∧
        (Engine.new.render job .text ()).text =
          .ok "\x7b\x7bend\x7d\x7d\x7b\x7bb\x7d\x7b\x7bb\x7d") ∧
      ∃ text, (Engine.new.render job .text ()).text = .ok text := by
  intro source program job
  have flat : ∀ head ∈ Block.headsList program.blocks, head.isRecursive = false := by
    decide +kernel
  have plain : job.Plain := ⟨rfl, fun _ given => nomatch given⟩
  have registered : (Engine.new : Engine Unit).data.Plain := fun _ mem => nomatch mem
  exact ⟨⟨flat, plain, by decide +kernel⟩,
    Engine.new.render_compiled job () rfl flat rfl registered plain (Nat.le_refl _)⟩

end Engine

end Stencil
