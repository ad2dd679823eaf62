import Stencil.Proofs.Saved.Accepted
import Mathlib.Logic.Function.Iterate

/-!
# Which span is refused

The check of a loaded template works off a list of blocks that grows meanwhile: a block is taken off
its end, and the blocks inside it are put there. So a block is looked at before the blocks inside it,
and these are looked at before the blocks in front of it.

1. `Block.backwards`: this order, told along the tree.
2. `firstMisfit?_eq`: the check refuses the first block in this order that does not fit.
3. `Check.iterate_round`: the check ends, after no more rounds than there are blocks and one.
4. `Program.misfit?_spec`: when a template is refused, and with which span.
-/

namespace Stencil

variable {block : Block}

/-! ## The order of the check -/

namespace Block

mutual

/-- A block and all blocks inside it, at any nesting: a block before those inside it, and of blocks
next to each other the last one first, so that a second branch comes before the first one. -/
def backwards : Block → List Block
  | .text content span => [.text content span]
  | .placeholder p => [.placeholder p]
  | .condition name recursive yes no span =>
    .condition name recursive yes no span :: (backwardsList no ++ backwardsList yes)
  | .iteration name body span => .iteration name body span :: backwardsList body

def backwardsList : List Block → List Block
  | [] => []
  | block :: blocks => backwardsList blocks ++ backwards block

end

theorem backwardsList_append (xs ys : List Block) :
    backwardsList (xs ++ ys) = backwardsList ys ++ backwardsList xs := by
  induction xs with
  | nil => rw [List.nil_append, backwardsList, List.append_nil]
  | cons x xs ih => rw [List.cons_append, backwardsList, backwardsList, ih, List.append_assoc]

theorem backwards_eq (block : Block) : block.backwards = block :: backwardsList block.children := by
  cases block <;> simp [backwards, children, backwardsList, backwardsList_append]

theorem backwardsList_reverse (blocks : List Block) :
    backwardsList blocks.reverse = blocks.flatMap backwards := by
  induction blocks with
  | nil => rfl
  | cons block blocks ih =>
    rw [List.reverse_cons, backwardsList_append, ih, List.flatMap_cons, backwardsList,
      backwardsList, List.nil_append]

theorem mem_backwardsList {blocks : List Block} :
    block ∈ backwardsList blocks ↔ ∃ outer ∈ blocks, block ∈ outer.backwards := by
  induction blocks with
  | nil => simp [backwardsList]
  | cons outer blocks ih => simp [backwardsList, ih, or_comm]

theorem countList_children_lt {outer : Block} {blocks : List Block} (mem : outer ∈ blocks) :
    countList outer.children < countList blocks := by
  obtain ⟨before, after, rfl⟩ := List.append_of_mem mem
  rw [countList_append, countList, count_eq]
  omega

/-- No block is left out, at any nesting. -/
theorem mem_backwardsList_iff_within {blocks : List Block} :
    block ∈ backwardsList blocks ↔ Within block blocks := by
  induction size : countList blocks using Nat.strongRecOn generalizing blocks with
  | ind count ih =>
    have inside {outer : Block} (there : outer ∈ blocks) :
        block ∈ outer.backwards ↔ block = outer ∨ Within block outer.children := by
      rw [backwards_eq, List.mem_cons, ih _ (size ▸ countList_children_lt there) rfl]
    rw [mem_backwardsList]
    constructor
    · rintro ⟨outer, there, mem⟩
      rcases (inside there).mp mem with rfl | within
      · exact .here there
      · exact .inside there within
    · intro within
      cases within with
      | here there => exact ⟨block, there, (inside there).mpr (.inl rfl)⟩
      | inside there within => exact ⟨_, there, (inside there).mpr (.inr within)⟩

end Block

/-- The check refuses the first block in its order that was not written at a region. -/
theorem firstMisfit?_eq (source : String) (pending : List Block) :
    firstMisfit? source pending =
      ((pending.flatMap Block.backwards).find? fun block => !block.span.fits source).map
        Block.span := by
  induction pending using firstMisfit?.induct source with
  | case1 => rw [firstMisfit?]; rfl
  | case2 block rest fits ih =>
    rw [firstMisfit?, if_pos fits, ih, List.flatMap_append, List.flatMap_cons, Block.backwards_eq,
      ← Block.backwardsList_reverse, List.reverse_reverse, List.cons_append, List.find?_cons, fits]
    rfl
  | case3 block rest misfit =>
    rw [firstMisfit?, if_neg misfit, List.flatMap_cons, Block.backwards_eq, List.cons_append,
      List.find?_cons, Bool.eq_false_iff.mpr misfit]
    rfl

/-! ## The check in rounds -/

/-- A check under way, with the blocks that are still to be looked at, the next one last, or at its
end. -/
inductive Check where
  | pending (blocks : List Block)
  | ended (misfit : Option Span)

def Check.round (source : String) : Check → Check
  | .ended misfit => .ended misfit
  | .pending blocks =>
    match blocks.getLast? with
    | none => .ended none
    | some block =>
      if block.span.fits source then .pending (blocks.dropLast ++ block.children)
      else .ended (some block.span)

theorem Check.iterate_round_ended (source : String) (misfit : Option Span) (rounds : Nat) :
    (round source)^[rounds] (.ended misfit) = .ended misfit :=
  Function.iterate_fixed rfl rounds

/-- A block is looked at in one round, so the check has ended after a round for each block and one
more. -/
theorem Check.iterate_round (source : String) (pending : List Block) (more : Nat) :
    (round source)^[Block.countList pending + 1 + more] (.pending pending.reverse) =
      .ended (firstMisfit? source pending) := by
  induction pending using firstMisfit?.induct source generalizing more with
  | case1 =>
    rw [firstMisfit?, Nat.add_right_comm, Function.iterate_succ_apply]
    exact iterate_round_ended source none _
  | case2 block rest fits ih =>
    have next : round source (.pending (block :: rest).reverse) =
        .pending (block.children.reverse ++ rest).reverse := by
      simp [round, fits]
    have size : Block.countList (block :: rest) + more =
        Block.countList (block.children.reverse ++ rest) + 1 + more := by
      rw [Block.countList_append, Block.countList_reverse, Block.countList, Block.count_eq]
      omega
    rw [firstMisfit?, if_pos fits, Nat.add_right_comm, Function.iterate_succ_apply, next, size]
    exact ih more
  | case3 block rest misfit =>
    have next : round source (.pending (block :: rest).reverse) = .ended (some block.span) := by
      simp [round, misfit]
    rw [firstMisfit?, if_neg misfit, Nat.add_right_comm, Function.iterate_succ_apply, next]
    exact iterate_round_ended source _ _

/-! ## Refused templates -/

namespace Program

/-- A text that decodes to a template is refused with the first span of it that does not fit. -/
theorem load_of_decode? {text : String} {program : Program} (decoded : decode? text = some program) :
    load text = match program.misfit? with
      | some span => .error (.misfit span)
      | none => .ok program := by
  obtain ⟨doc, read, held⟩ := Option.bind_eq_some_iff.mp decoded
  have versioned : readVersioned text = Except.ok doc := readVersioned_eq_ok_iff.mpr read
  cases checked : program.misfit? <;>
    simp only [load, versioned, held, checked, bind, Except.bind]

/-- The check of spans. It ends, after at most one round for each block and one more. It finds
nothing exactly if every block, at any nesting, was written at a region of the source, and otherwise
the span of the first block that was not: of blocks next to each other the last one comes first, and
a block comes before the blocks inside it. So every text that decodes to the template is refused
with this span. -/
theorem misfit?_spec (program : Program) :
    (∀ more, (Check.round program.source)^[Block.countList program.blocks + 1 + more]
      (.pending program.blocks) = .ended program.misfit?) ∧
    (program.misfit? = none ↔ ∀ block, Block.Within block program.blocks →
      ∃ region, block.span.select? program.source.toList = some region) ∧
    program.misfit? = ((Block.backwardsList program.blocks).find? fun block =>
      !block.span.fits program.source).map Block.span ∧
    ∀ text, decode? text = some program → load text =
      match (Block.backwardsList program.blocks).find? fun block =>
        !block.span.fits program.source with
      | some block => .error (.misfit block.span)
      | none => .ok program := by
  have first : program.misfit? = ((Block.backwardsList program.blocks).find? fun block =>
      !block.span.fits program.source).map Block.span := by
    rw [misfit?, firstMisfit?_eq, ← Block.backwardsList_reverse, List.reverse_reverse]
  refine ⟨fun more => ?_, ?_, first, fun text decoded => ?_⟩
  · have rounds := Check.iterate_round program.source program.blocks.reverse more
    rwa [Block.countList_reverse, List.reverse_reverse] at rounds
  · rw [first, Option.map_eq_none_iff, List.find?_eq_none]
    simp only [Block.mem_backwardsList_iff_within, Bool.not_eq_true', Bool.not_eq_false, Span.fits,
      Option.isSome_iff_exists]
  · rw [load_of_decode? decoded, first]
    cases (Block.backwardsList program.blocks).find? _ <;> rfl

/-- Both branches of the condition hold a misfit, and the one in the second branch is named. -/
theorem misfit?_spec_branches :
    let text := "\x7b\"version\":1,\"source\":\"xy\",\"blocks\":[\x7b\"Condition\":[\"a\",false," ++
      "[\x7b\"Text\":[\"\",[5,6]]\x7d],[\x7b\"Text\":[\"\",[2,1]]\x7d,\x7b\"Text\":[\"x\",[0,1]]\x7d],"
        ++ "[0,1]]\x7d,\x7b\"Iterator\":[\"b\",[],[1,2]]\x7d]\x7d"
    let program : Program := ⟨"xy", [.condition "a" false [.text "" ⟨5, 6⟩]
      [.text "" ⟨2, 1⟩, .text "x" ⟨0, 1⟩] ⟨0, 1⟩, .iteration "b" [] ⟨1, 2⟩]⟩
    decode? text = some program ∧ load text = .error (.misfit ⟨2, 1⟩) := by
  intro text program
  have decoded : decode? text = some program := by decide +kernel
  have first : ((Block.backwardsList program.blocks).find? fun block =>
      !block.span.fits program.source) = some (.text "" ⟨2, 1⟩) := by decide +kernel
  have refused := (misfit?_spec program).2.2.2 text decoded
  rw [first] at refused
  exact ⟨decoded, refused⟩

end Program

end Stencil
