import Stencil.Span

/-!
# Blocks

A compiled template is a list of blocks, each with the span of the source it was written at. Text
is emitted as it stands; the other blocks are directives. The nesting of conditions and iterations
follows the balanced `if`, `foreach` and `end` tags of the source.
-/

namespace Stencil

/-- A directive that emits the value of a name. -/
structure Placeholder where
  name : String
  /-- Whether the value is rendered again as a template. -/
  recursive : Bool
  /-- Whether the value is escaped for HTML, that is, written with two braces and not three. -/
  escape : Bool
  span : Span
  deriving DecidableEq, Repr

/-- A node of a compiled template. -/
inductive Block where
  /-- Text that is emitted as it stands. -/
  | text (content : String) (span : Span)
  | placeholder (placeholder : Placeholder)
  /-- Two branches, one of which is rendered. A recursive condition renders its value as a
  template before testing it. -/
  | condition (name : String) (recursive : Bool) (thenBranch elseBranch : List Block) (span : Span)
  /-- A body that is rendered once for each member of a value. -/
  | iteration (name : String) (body : List Block) (span : Span)
  deriving Repr

/-- A compiled template with its source. -/
structure Program where
  source : String
  blocks : List Block
  deriving Repr

/-- The region of the source that a block was written at: its text, or its opening tag. -/
def Block.span : Block → Span
  | .text _ span => span
  | .placeholder p => p.span
  | .condition _ _ _ _ span => span
  | .iteration _ _ span => span

/-- The placeholder as a tag, without its recursion flag and without white space. -/
def Placeholder.toSource (p : Placeholder) : String :=
  if p.escape then "\x7b\x7b" ++ p.name ++ "\x7d\x7d"
  else "\x7b\x7b\x7b" ++ p.name ++ "\x7d\x7d\x7d"

/-! ## Equality of trees -/

mutual

def Block.same : Block → Block → Bool
  | .text content span, .text content' span' => content == content' && span == span'
  | .placeholder p, .placeholder p' => p == p'
  | .condition name recursive yes no span, .condition name' recursive' yes' no' span' =>
    name == name' && recursive == recursive' && span == span' &&
      Block.sameList yes yes' && Block.sameList no no'
  | .iteration name body span, .iteration name' body' span' =>
    name == name' && span == span' && Block.sameList body body'
  | _, _ => false

def Block.sameList : List Block → List Block → Bool
  | [], [] => true
  | b :: bs, b' :: bs' => Block.same b b' && Block.sameList bs bs'
  | _, _ => false

end

mutual

/-- The test for sameness decides equality. -/
theorem Block.same_iff : (a b : Block) → (Block.same a b = true ↔ a = b)
  | .text .., .text .. => by simp [Block.same]
  | .placeholder _, .placeholder _ => by simp [Block.same]
  | .condition _ _ yes no _, .condition _ _ yes' no' _ => by
    simp only [Block.same, Bool.and_eq_true, beq_iff_eq, Block.condition.injEq,
      Block.sameList_iff yes yes', Block.sameList_iff no no']
    constructor <;> rintro ⟨_, _⟩ <;> simp_all
  | .iteration _ body _, .iteration _ body' _ => by
    simp only [Block.same, Bool.and_eq_true, beq_iff_eq, Block.iteration.injEq,
      Block.sameList_iff body body']
    constructor <;> rintro ⟨_, _⟩ <;> simp_all
  | .text .., .placeholder _ | .text .., .condition .. | .text .., .iteration ..
  | .placeholder _, .text .. | .placeholder _, .condition .. | .placeholder _, .iteration ..
  | .condition .., .text .. | .condition .., .placeholder _ | .condition .., .iteration ..
  | .iteration .., .text .. | .iteration .., .placeholder _ | .iteration .., .condition .. => by
    simp [Block.same]

theorem Block.sameList_iff : (as bs : List Block) → (Block.sameList as bs = true ↔ as = bs)
  | [], [] => by simp [Block.sameList]
  | [], _ :: _ | _ :: _, [] => by simp [Block.sameList]
  | a :: as, b :: bs => by
    simp only [Block.sameList, Bool.and_eq_true, List.cons.injEq, Block.same_iff a b,
      Block.sameList_iff as bs]

end

instance : DecidableEq Block := fun a b => decidable_of_iff _ (Block.same_iff a b)

deriving instance DecidableEq for Program

end Stencil
