import Stencil.Saved.Decode

/-!
# Block trees

What can be said of a tree of blocks as a whole: which blocks and spans are in it, in the order of
the source (`Block.heads`, `Block.spans`), and how many arrays and objects are open at once where it
is saved (`Block.levels`). `Program.misfit?_eq_none_iff` says that the check of a loaded template
looks at every span.
-/

namespace Stencil

namespace Block

/-! ## Heads -/

def name? : Block → Option String
  | .text .. => none
  | .placeholder p => some p.name
  | .condition name .. => some name
  | .iteration name .. => some name

mutual

/-- A block and all blocks in it, each without the blocks that it holds: a directive first, then
what is in its first branch, and then what is in the other one. -/
def heads : Block → List Block
  | .text content span => [.text content span]
  | .placeholder p => [.placeholder p]
  | .condition name recursive yes no span =>
    .condition name recursive [] [] span :: (headsList yes ++ headsList no)
  | .iteration name body span => .iteration name [] span :: headsList body

/-- Some blocks and all blocks in them, each without the blocks that it holds. -/
def headsList : List Block → List Block
  | [] => []
  | block :: blocks => heads block ++ headsList blocks

end

theorem headsList_append (xs ys : List Block) :
    headsList (xs ++ ys) = headsList xs ++ headsList ys := by
  induction xs with
  | nil => rfl
  | cons x xs ih => rw [List.cons_append, headsList, headsList, ih, List.append_assoc]

theorem headsList_singleton (block : Block) : headsList [block] = block.heads := by
  rw [headsList, headsList, List.append_nil]

theorem mem_headsList {head : Block} {blocks : List Block} :
    head ∈ headsList blocks ↔ ∃ block ∈ blocks, head ∈ block.heads := by
  induction blocks with
  | nil => simp [headsList]
  | cons block blocks ih => simp [headsList, ih]

/-- What is in a block is in all blocks that it is among. -/
theorem heads_subset_headsList {block : Block} {blocks : List Block} (mem : block ∈ blocks) :
    block.heads ⊆ headsList blocks :=
  fun _ inside => mem_headsList.mpr ⟨block, mem, inside⟩

/-- What is in either branch of a condition is in the condition. -/
theorem headsList_branch_subset {name : String} {recursive : Bool} {yes no : List Block}
    {span : Span} (selected : Bool) :
    headsList (if selected then yes else no) ⊆
      (Block.condition name recursive yes no span).heads := by
  rw [heads]
  cases selected with
  | false => exact List.subset_cons_of_subset _ (List.subset_append_right _ _)
  | true => exact List.subset_cons_of_subset _ (List.subset_append_left _ _)

theorem headsList_body_subset {name : String} {body : List Block} {span : Span} :
    headsList body ⊆ (Block.iteration name body span).heads := by
  rw [heads]
  exact List.subset_cons_self _ _

/-! ## Nesting -/

/-- A block is among some blocks, or inside one of them at any nesting. -/
inductive Within (block : Block) : List Block → Prop
  | here {blocks : List Block} (mem : block ∈ blocks) : Within block blocks
  | inside {outer : Block} {blocks : List Block} (mem : outer ∈ blocks)
      (within : Within block outer.children) : Within block blocks

/-- Blocks may be put next to other ones, or into other ones. -/
theorem Within.lift {block : Block} {blocks more : List Block} (within : Within block blocks)
    (each : ∀ other ∈ blocks, other ∈ more ∨ ∃ outer ∈ more, other ∈ outer.children) :
    Within block more := by
  cases within with
  | here mem =>
    rcases each _ mem with there | ⟨outer, there, child⟩
    · exact .here there
    · exact .inside there (.here child)
  | inside mem within =>
    rcases each _ mem with there | ⟨outer, there, child⟩
    · exact .inside there within
    · exact .inside there (.inside child within)

theorem Within.mono {block : Block} {blocks more : List Block} (within : Within block blocks)
    (subset : blocks ⊆ more) : Within block more :=
  within.lift fun _ mem => .inl (subset mem)

/-! ## Spans -/

mutual

/-- The spans of a block and of all blocks in it, in the order of the source. -/
def spans : Block → List Span
  | .text _ span => [span]
  | .placeholder p => [p.span]
  | .condition _ _ yes no span => span :: (spansList yes ++ spansList no)
  | .iteration _ body span => span :: spansList body

/-- The spans of some blocks and of all blocks in them, in the order of the source. -/
def spansList : List Block → List Span
  | [] => []
  | block :: blocks => spans block ++ spansList blocks

end

mutual

/-- The spans in a tree are those of the heads. -/
theorem spans_eq_heads : (block : Block) → block.spans = block.heads.map span
  | .text .. | .placeholder _ => rfl
  | .condition _ _ yes no _ => by
    rw [spans, heads, List.map_cons, List.map_append, spansList_eq_heads yes,
      spansList_eq_heads no]
    rfl
  | .iteration _ body _ => by
    rw [spans, heads, List.map_cons, spansList_eq_heads body]
    rfl

theorem spansList_eq_heads : (blocks : List Block) → spansList blocks = (headsList blocks).map span
  | [] => rfl
  | block :: blocks => by
    rw [spansList, headsList, List.map_append, spans_eq_heads block, spansList_eq_heads blocks]

end

theorem spansList_append (xs ys : List Block) :
    spansList (xs ++ ys) = spansList xs ++ spansList ys := by
  induction xs with
  | nil => rfl
  | cons x xs ih => rw [List.cons_append, spansList, spansList, ih, List.append_assoc]

theorem spans_eq (block : Block) : block.spans = block.span :: spansList block.children := by
  cases block <;> simp [spans, span, children, spansList, spansList_append]

theorem mem_spansList {span : Span} {blocks : List Block} :
    span ∈ spansList blocks ↔ ∃ block ∈ blocks, span ∈ block.spans := by
  induction blocks with
  | nil => simp [spansList]
  | cons block blocks ih => simp [spansList, ih]

/-! ## Levels -/

mutual

/-- The number of arrays and objects that are open at once in the saved form of a block: its tag,
its fields and its span, or its tag, its fields, a list of blocks, and what these need. -/
def levels : Block → Nat
  | .text .. | .placeholder _ => 3
  | .condition _ _ yes no _ => max (levelsList yes) (levelsList no) + 3
  | .iteration _ body _ => levelsList body + 3

def levelsList : List Block → Nat
  | [] => 0
  | block :: blocks => max (levels block) (levelsList blocks)

end

theorem levelsList_append (xs ys : List Block) :
    levelsList (xs ++ ys) = max (levelsList xs) (levelsList ys) := by
  induction xs with
  | nil => simp [levelsList]
  | cons x xs ih => simp [levelsList, ih, Nat.max_assoc]

theorem levelsList_reverse (blocks : List Block) :
    levelsList blocks.reverse = levelsList blocks := by
  induction blocks with
  | nil => rfl
  | cons block blocks ih =>
    rw [List.reverse_cons, levelsList_append, ih]
    simp [levelsList, Nat.max_comm]

theorem levels_eq (block : Block) : block.levels = levelsList block.children + 3 := by
  cases block <;> simp [levels, children, levelsList, levelsList_append]

theorem levelsList_le_iff {bound : Nat} {blocks : List Block} :
    levelsList blocks ≤ bound ↔ ∀ block ∈ blocks, block.levels ≤ bound := by
  induction blocks with
  | nil => simp [levelsList]
  | cons block blocks ih => rw [levelsList, Nat.max_le, ih, List.forall_mem_cons]

mutual

/-- Levels come in threes. -/
theorem three_dvd_levels : (block : Block) → 3 ∣ levels block
  | .text .. | .placeholder _ => by simp [levels]
  | .condition _ _ yes no _ => by
    have := three_dvd_levelsList yes
    have := three_dvd_levelsList no
    rw [levels]
    omega
  | .iteration _ body _ => by
    have := three_dvd_levelsList body
    rw [levels]
    omega

theorem three_dvd_levelsList : (blocks : List Block) → 3 ∣ levelsList blocks
  | [] => by simp [levelsList]
  | block :: blocks => by
    have := three_dvd_levels block
    have := three_dvd_levelsList blocks
    rw [levelsList]
    omega

end

end Block

/-! ## The check of spans -/

/-- The check passes exactly where every span in the trees selects a region of the source. -/
theorem firstMisfit?_eq_none_iff (source : String) (pending : List Block) :
    firstMisfit? source pending = none ↔
      ∀ span ∈ Block.spansList pending, span.fits source = true := by
  induction pending using firstMisfit?.induct source with
  | case1 => simp [firstMisfit?, Block.spansList]
  | case2 block rest fits ih =>
    rw [firstMisfit?, if_pos fits, ih]
    simp only [Block.spansList_append, Block.spansList, Block.spans_eq block, List.mem_append,
      List.mem_cons, Block.mem_spansList, List.mem_reverse]
    constructor
    · rintro inside span ((rfl | mem) | mem)
      · exact fits
      · exact inside span (.inl mem)
      · exact inside span (.inr mem)
    · rintro all span (mem | mem)
      · exact all span (.inl (.inr mem))
      · exact all span (.inr mem)
  | case3 block rest misfit =>
    rw [firstMisfit?, if_neg misfit]
    simp only [reduceCtorEq, false_iff]
    intro all
    exact misfit (all block.span (by simp [Block.spansList, Block.spans_eq]))

theorem Program.misfit?_eq_none_iff (program : Program) :
    program.misfit? = none ↔
      ∀ span ∈ Block.spansList program.blocks, span.fits program.source = true := by
  rw [Program.misfit?, firstMisfit?_eq_none_iff]
  simp only [Block.mem_spansList, List.mem_reverse]

end Stencil
