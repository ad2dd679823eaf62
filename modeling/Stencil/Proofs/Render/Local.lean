import Stencil.Proofs.Block.Tree
import Stencil.Proofs.Render.Iterate
import Stencil.Proofs.Render.Levels
import Stencil.Proofs.Table

/-!
# Templates that look at the current value only

The path and the root of a position are there for names that climb, and for what is rendered as a
template in turn. Without either, a template reads nothing of its position but the current value:
the members that it iterates over and the values that templates stand in on are found from there.

1. `Block.IsLocal`: a block that is not recursive and whose name does not climb.
2. `Level.resolve_local`: such a name is found in the same way from all positions at a value.
3. `renderBlocks_local`: such blocks are rendered in the same way.
4. `Engine.render_local`: so is a template, where the registered templates are made of such blocks.
-/

namespace Stencil

variable {σ : Type}

namespace Block

/-- A block that is not recursive itself, and whose name does not climb. -/
structure IsLocal (block : Block) : Prop where
  flat : block.isRecursive = false
  stays : ∀ name ∈ block.name?, ¬ ['.', '.', '/'] <+: name.toList

instance : DecidablePred IsLocal := fun block =>
  decidable_of_iff (block.isRecursive = false ∧
    ∀ name ∈ block.name?, ¬ ['.', '.', '/'] <+: name.toList)
    ⟨fun ⟨flat, stays⟩ => ⟨flat, stays⟩, fun ⟨flat, stays⟩ => ⟨flat, stays⟩⟩

def AllLocal (blocks : List Block) : Prop :=
  ∀ head ∈ headsList blocks, head.IsLocal

instance : DecidablePred AllLocal := fun blocks =>
  inferInstanceAs (Decidable (∀ head ∈ headsList blocks, head.IsLocal))

theorem AllLocal.mono {blocks inner : List Block} (blocks_local : AllLocal blocks)
    (subset : headsList inner ⊆ headsList blocks) : AllLocal inner :=
  fun head mem => blocks_local head (subset mem)

theorem AllLocal.single {block : Block} {blocks : List Block} (blocks_local : AllLocal blocks)
    (mem : block ∈ blocks) : AllLocal [block] := by
  refine blocks_local.mono ?_
  rw [headsList_singleton]
  exact heads_subset_headsList mem

end Block

def Table.AllLocal (templates : Table Program) : Prop :=
  ∀ entry ∈ templates.entries, Block.AllLocal entry.2.blocks

instance (templates : Table Program) : Decidable templates.AllLocal :=
  inferInstanceAs (Decidable (∀ entry ∈ templates.entries, Block.AllLocal entry.2.blocks))

theorem Table.AllLocal.find {templates : Table Program} (templates_local : templates.AllLocal)
    {name : String} {program : Program} (found : templates.find? name = some program) :
    Block.AllLocal program.blocks :=
  templates_local (name, program) ((find?_eq_some_iff templates).mp found)

/-- The same place, but for the position in the data. -/
def Place.at (place : Place σ) (context : Context σ) : Place σ := { place with context }

namespace Level

variable {level : Level σ} {context other : Context σ}

/-! ## Finding values -/

/-- Templates that stand in for members are rendered in the same way from all positions at a
value. -/
def StandInsLocal (level : Level σ) : Prop :=
  ∀ name program, level.setting.templates.find? name = some program →
    ∀ context other : Context σ, context.current = other.current →
      level.renderPrivately program context = level.renderPrivately program other

theorem member_local (standIns : level.StandInsLocal) (same : context.current = other.current)
    (name : String) : level.member context name = level.member other name := by
  unfold member
  rw [same]
  split
  · rfl
  · split
    · rfl
    · split
      · next program registered => rw [standIns name program registered context other same]
      · rfl

theorem drill_local (standIns : level.StandInsLocal) (same : context.current = other.current)
    (segments : List String) : level.drill context segments = level.drill other segments := by
  induction segments generalizing context other with
  | nil => rw [drill, drill, same]
  | cons segment segments ih =>
    rw [drill, drill, member_local standIns same]
    congr 1
    funext found
    cases found with
    | none => rfl
    | some value => exact ih rfl

theorem drillData_local (standIns : level.StandInsLocal) (root root' : Value σ)
    (segments : List String) : level.drillData root segments = level.drillData root' segments := by
  cases segments with
  | nil => rfl
  | cons segment segments =>
    rw [drillData, drillData]
    split
    · rfl
    · congr 1
      funext settled
      refine drill_local standIns ?_ segments
      rfl

theorem find_local (standIns : level.StandInsLocal) (same : context.current = other.current)
    (segments : List String) : level.find context segments = level.find other segments := by
  rw [find, find, drill_local standIns same]
  congr 1
  funext found
  cases found with
  | none => exact drillData_local standIns _ _ segments
  | some value => rfl

/-- A name that does not climb is found in the same way from all positions at a value. -/
theorem resolve_local (standIns : level.StandInsLocal) (same : context.current = other.current)
    {text : String} (stays : ¬ ['.', '.', '/'] <+: text.toList) :
    level.resolve context text = level.resolve other text := by
  have name := Name.ofText_of_climbs_eq_zero (Name.climbs_eq_zero_of_not_prefix stays)
  rw [resolve, resolve, name]
  exact find_local standIns same _

/-! ## Rendering blocks -/

/-- What is done one level further down is the same if it is the same with the rendering there. -/
theorem descend_congr {α : Type} {next next' : Body σ → Eval σ α}
    (after : ∀ body ∈ level.below, next body = next' body) :
    level.descend >>= next = level.descend >>= next' := by
  unfold descend
  cases reached : level.below with
  | none => rfl
  | some body =>
    rw [pure_bind, pure_bind]
    exact after body reached

section

variable {place : Place σ} (standIns : level.StandInsLocal)
  (same : place.context.current = other.current)
include standIns same

theorem placeholder_local {p : Placeholder} (p_local : (Block.placeholder p).IsLocal) :
    level.placeholder place p = level.placeholder (place.at other) p := by
  have flat : p.recursive = false := p_local.flat
  have found := resolve_local standIns same (p_local.stays p.name rfl)
  have ready (text : String) : (p.recursive && hasTag text.toList) = false := by
    rw [flat, Bool.false_and]
  rw [placeholder, placeholder, Place.at, found]
  simp only [ready, Bool.false_eq_true, if_false]

variable (below : ∀ body ∈ level.below, ∀ (place : Place σ) (other : Context σ)
  (blocks : List Block), place.context.current = other.current → Block.AllLocal blocks →
    body place blocks = body (place.at other) blocks)
include below

omit standIns in
theorem branch_local {blocks : List Block} (blocks_local : Block.AllLocal blocks) :
    level.branch place blocks = level.branch (place.at other) blocks := by
  unfold branch
  split
  · rfl
  · exact descend_congr fun body reached => below body reached place other blocks same blocks_local

theorem condition_local {name : String} {recursive : Bool} {yes no : List Block} {span : Span}
    (block_local : Block.AllLocal [.condition name recursive yes no span]) :
    level.condition place name recursive yes no =
      level.condition (place.at other) name recursive yes no := by
  have head_local := block_local _ List.mem_cons_self
  obtain rfl : recursive = false := head_local.flat
  have branch (selected : Bool) : Block.AllLocal (if selected then yes else no) := by
    refine block_local.mono ?_
    rw [Block.headsList_singleton]
    exact Block.headsList_branch_subset selected
  have found := resolve_local standIns same (head_local.stays name rfl)
  have decided : level.decision (place.at other).context name false =
      level.decision place.context name false := by
    rw [decision, decision]
    simp only [holds_of_flat]
    rw [Place.at, found]
  rw [condition_eq, condition_eq, decided]
  congr 1
  funext selected
  exact branch_local same below (branch selected)

theorem iteration_local {name : String} {inner : List Block} {span : Span}
    (block_local : Block.AllLocal [.iteration name inner span]) :
    level.iteration place name inner = level.iteration (place.at other) name inner := by
  have head_local := block_local _ List.mem_cons_self
  have inner_local : Block.AllLocal inner := by
    refine block_local.mono ?_
    rw [Block.headsList_singleton]
    exact Block.headsList_body_subset
  rw [iteration, iteration, Place.at, resolve_local standIns same (head_local.stays name rfl)]
  congr 1
  funext found
  cases found with
  | none => rfl
  | some value =>
    dsimp only
    split
    · refine descend_congr fun body reached => ?_
      congr 1
      funext item
      exact below body reached _ _ inner rfl inner_local
    · rfl

theorem block_local {block : Block} (block_local : Block.AllLocal [block]) :
    level.block place block = level.block (place.at other) block := by
  cases block with
  | text content span => rfl
  | placeholder p =>
    exact congrArg (Eval.locate _ _)
      (placeholder_local standIns same (block_local _ List.mem_cons_self))
  | condition name recursive yes no span =>
    exact congrArg (Eval.locate _ _) (condition_local standIns same below block_local)
  | iteration name inner span =>
    exact congrArg (Eval.locate _ _) (iteration_local standIns same below block_local)

end

end Level

/-- Local blocks are rendered in the same way from all positions at a value, at every depth. -/
theorem renderBlocks_local {setting : Setting σ} (registered : setting.templates.AllLocal)
    {depth : Nat} {place : Place σ} {other : Context σ}
    (same : place.context.current = other.current) {blocks : List Block}
    (blocks_local : Block.AllLocal blocks) :
    renderBlocks setting depth place blocks =
      renderBlocks setting depth (place.at other) blocks := by
  induction depth using Nat.strongRecOn generalizing place other blocks with
  | ind depth ih =>
    have below : ∀ body ∈ (Level.ofDepth setting depth).below, ∀ (place : Place σ)
        (other : Context σ) (blocks : List Block), place.context.current = other.current →
          Block.AllLocal blocks → body place blocks = body (place.at other) blocks := by
      intro body reached place other blocks same blocks_local
      cases depth with
      | zero => cases reached
      | succ depth =>
        cases reached
        exact ih depth (Nat.lt_succ_self depth) same blocks_local
    have standIns : (Level.ofDepth setting depth).StandInsLocal := by
      intro name program found context other same
      rw [Level.setting_ofDepth] at found
      refine Level.descend_congr fun body reached => congrArg Eval.capture ?_
      exact below body reached _ other program.blocks same (registered.find found)
    rw [renderBlocks_eq, renderBlocks_eq]
    refine Eval.forM_congr fun block mem => ?_
    exact Level.block_local standIns same below (blocks_local.single mem)

namespace Engine

/-- A template that neither climbs nor is recursive, with registered templates that do not either,
looks at nothing but the current value. From all positions at one value, whatever their paths and
roots are, it is rendered in the same way: it ends alike, with the same writes and notices, and
leaves the engine and the host alike. -/
theorem render_local (engine : Engine σ) (job : Job σ)
    (job_local : Block.AllLocal job.program.blocks) (registered : engine.templates.AllLocal)
    (current : Value σ) (path path' : String) (root root' : Value σ) (target : Target)
    (host : σ) :
    engine.render { job with context := some ⟨current, path, root⟩ } target host =
      engine.render { job with context := some ⟨current, path', root'⟩ } target host := by
  let here : Job σ := { job with context := some ⟨current, path, root⟩ }
  let there : Job σ := { job with context := some ⟨current, path', root'⟩ }
  show engine.render here target host = engine.render there target host
  let setting : Setting σ := engine.setting job
  let place : Place σ := ⟨job.program.source, job.keepUndefined, ⟨current, path, root⟩⟩
  let other : Context σ := ⟨current, path', root'⟩
  have beside : place.context.current = other.current := rfl
  have same : renderBlocks setting setting.maxDepth place job.program.blocks =
      renderBlocks setting setting.maxDepth (place.at other) job.program.blocks :=
    renderBlocks_local registered beside job_local
  cases ready : job.prepared host with
  | error error host' =>
    have here_failed : here.prepared host = .error error host' := ready
    have there_failed : there.prepared host = .error error host' := ready
    rw [engine.render_of_error target here_failed, engine.render_of_error target there_failed]
  | ok data host' =>
    have here_ready : here.prepared host = .ok data host' := ready
    have there_ready : there.prepared host = .ok data host' := ready
    rw [engine.render_of_ok target here_ready, engine.render_of_ok target there_ready]
    exact congrArg (fun step : Eval σ Unit => engine.outcome target (step _)) same

/-- The template stands in for a member of each item, and one name falls back to registered data.
The host counts how often the computed value is called. The current value is at the root, or at a
path that does not lead to it. -/
theorem render_local_item :
    let engine : Engine Nat := ((Engine.new.registerTemplate "t" "(\x7b\x7bn\x7d\x7d)").value
      |>.registerData "d" (.text "&")).value
    let program := (Program.compile
      "\x7b\x7bforeach a\x7d\x7d\x7b\x7bt\x7d\x7d\x7b\x7bend\x7d\x7d\x7b\x7bd\x7d\x7d").value
    let job : Job Nat := ⟨program, .null, false, none, true, none⟩
    let member : Value Nat :=
      .map [("n", .computed 0 fun calls => .value (calls + 1) (.text "7"))]
    let current : Value Nat := .map [("a", .list [member, member])]
    let rendered (path : String) (root : Value Nat) :=
      engine.render { job with context := some ⟨current, path, root⟩ } .text 0
    (Block.AllLocal program.blocks ∧ engine.templates.AllLocal ∧
        (rendered "" current).written = "(7)(7)&amp;" ∧ (rendered "" current).host = 2) ∧
      rendered "" current = rendered "a.[item]" (.text "d") := by
  intro engine program job member current rendered
  have job_local : Block.AllLocal program.blocks := by decide +kernel
  have registered : engine.templates.AllLocal := by decide +kernel
  refine ⟨⟨job_local, registered, by decide +kernel, by decide +kernel⟩, ?_⟩
  exact engine.render_local job job_local registered current "" "a.[item]" current (.text "d") .text
    0

end Engine

end Stencil
