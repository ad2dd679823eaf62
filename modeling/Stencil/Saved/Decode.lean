import Stencil.Block
import Stencil.Error
import Stencil.Json.Parser

/-!
# Saved templates: reading

A saved template is checked in three steps. First only its version is read, from a document of any
other shape. Then the source and the blocks are read: every field must be there once, with its
exact type, and other fields are passed over unread. Last, every span must select a region of the
source.

An object with known fields may also be written as the array of their values. While the fields are
read, at most `maxDepth` arrays and objects may be open.
-/

namespace Stencil

/-! ## Parts of a document -/

namespace Json

/-- The value of a field that is there exactly once. -/
def field? (fields : List (Option String × Json)) (name : String) : Option Json :=
  match fields.filter fun field => field.1 == some name with
  | [(_, value)] => some value
  | _ => none

/-- The values of the fields with these names. Other fields may be there, but no field whose name
is no text. An array holds exactly the values. -/
def fields? (names : List String) : Json → Option (List Json)
  | .object fields =>
    if fields.all fun field => field.1.isSome then names.mapM (field? fields) else none
  | .array items => if items.length = names.length then some items else none
  | _ => none

def text? : Json → Option String
  | .string value => value
  | _ => none

def bool? : Json → Option Bool
  | .bool value => some value
  | _ => none

/-- A whole number below a bound. -/
def nat? (bound : Nat) : Json → Option Nat
  | .number n => n.toNat?.filter (· < bound)
  | _ => none

end Json

/-! ## Templates -/

def Span.ofJson? (doc : Json) : Option Span := do
  let [start, stop] ← doc.fields? ["m", "n"] | none
  some ⟨← start.nat? UInt64.size, ← stop.nat? UInt64.size⟩

/-- A block of at most so many arrays and objects inside each other. -/
def Block.ofJson? : Nat → Json → Option Block
  | depth + 3, .object [(some kind, body)] =>
    match kind with
    | "Text" => do
      let [content, span] ← body.fields? ["text", "span"] | none
      some (.text (← content.text?) (← Span.ofJson? span))
    | "Placeholder" => do
      let [name, recursive, escape, span] ←
        body.fields? ["name", "recursive", "escape", "span"] | none
      some (.placeholder
        ⟨← name.text?, ← recursive.bool?, ← escape.bool?, ← Span.ofJson? span⟩)
    | "Condition" => do
      let [name, recursive, yes, no, span] ←
        body.fields? ["name", "recursive", "then_branch", "else_branch", "span"] | none
      let .array yes := yes | none
      let .array no := no | none
      some (.condition (← name.text?) (← recursive.bool?) (← yes.mapM (Block.ofJson? depth))
        (← no.mapM (Block.ofJson? depth)) (← Span.ofJson? span))
    | "Iterator" => do
      let [name, inner, span] ← body.fields? ["name", "body", "span"] | none
      let .array inner := inner | none
      some (.iteration (← name.text?) (← inner.mapM (Block.ofJson? depth)) (← Span.ofJson? span))
    | _ => none
  | _, _ => none

namespace Program

/-- A template of at most `depth` arrays and objects inside each other. -/
def ofJson? : Nat → Json → Option Program
  | depth + 2, doc => do
    let [source, blocks] ← doc.fields? ["source", "blocks"] | none
    let .array blocks := blocks | none
    some ⟨← source.text?, ← blocks.mapM (Block.ofJson? depth)⟩
  | _, _ => none

/-- Templates with their names, in the order of the document, of at most `depth` arrays and objects
inside each other. -/
def tableOfJson? : Nat → Json → Option (List (String × Program))
  | depth + 2, doc => do
    let [templates] ← doc.fields? ["templates"] | none
    let .object templates := templates | none
    templates.mapM fun (name, program) => do some (← name, ← ofJson? depth program)
  | _, _ => none

def version? (doc : Json) : Option Nat := do
  let [version] ← doc.fields? ["version"] | none
  version.nat? UInt32.size

end Program

/-! ## Spans -/

mutual

def Block.count : Block → Nat
  | .text .. | .placeholder _ => 1
  | .condition _ _ yes no _ => 1 + Block.countList yes + Block.countList no
  | .iteration _ body _ => 1 + Block.countList body

def Block.countList : List Block → Nat
  | [] => 0
  | block :: blocks => Block.count block + Block.countList blocks

end

/-- The blocks directly inside a block, in the order of the source. -/
def Block.children : Block → List Block
  | .text .. | .placeholder _ => []
  | .condition _ _ yes no _ => yes ++ no
  | .iteration _ body _ => body

theorem Block.countList_append (xs ys : List Block) :
    Block.countList (xs ++ ys) = Block.countList xs + Block.countList ys := by
  induction xs with
  | nil => simp [countList]
  | cons x xs ih => simp [countList, ih, Nat.add_assoc]

theorem Block.countList_reverse (xs : List Block) :
    Block.countList xs.reverse = Block.countList xs := by
  induction xs with
  | nil => rfl
  | cons x xs ih => simp [countList_append, countList, ih, Nat.add_comm]

theorem Block.count_eq (block : Block) : block.count = 1 + Block.countList block.children := by
  cases block <;> simp [count, children, countList, countList_append, Nat.add_assoc]

/-- The first span that does not fit the source, where `pending` are the blocks still to be
checked, next first. The blocks inside a block are checked right after it, last first. -/
def firstMisfit? (source : String) (pending : List Block) : Option Span :=
  match pending with
  | [] => none
  | block :: rest =>
    if block.span.fits source then firstMisfit? source (block.children.reverse ++ rest)
    else some block.span
termination_by Block.countList pending
decreasing_by
  rw [Block.countList_append, Block.countList_reverse, Block.countList, Block.count_eq]
  omega

/-- The first span of a template that does not fit its source. -/
def Program.misfit? (program : Program) : Option Span :=
  firstMisfit? program.source program.blocks.reverse

/-! ## Loading -/

namespace Program

/-- The document in a text, if it has the version that can be read. -/
def readVersioned (text : String) : Except LoadFailure Json :=
  match Json.ofText? text with
  | none => .error .malformed
  | some doc =>
    match version? doc with
    | none => .error .malformed
    | some version =>
      if version = savedVersion then .ok doc else .error (.unsupportedVersion version)

def load (text : String) : Except LoadFailure Program := do
  let doc ← readVersioned text
  match ofJson? Json.maxDepth doc with
  | none => .error .malformed
  | some program =>
    match program.misfit? with
    | some span => .error (.misfit span)
    | none => .ok program

end Program

end Stencil
