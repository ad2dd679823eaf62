import Stencil.Token

/-!
# Directives

What a tag says. The first word decides: `if` and `foreach` open a block and need a name, `else`
divides a condition, `end` closes a block and may say which kind, and any other word is the name
of a placeholder. The word `/r` behind the name marks a condition or a placeholder as recursive.
-/

namespace Stencil

/-- What an opening tag opens. -/
inductive Opening where
  | condition (name : String) (recursive : Bool)
  | iteration (name : String)
  deriving DecidableEq, Repr

inductive Directive where
  | opens (opening : Opening)
  /-- The tag `else`. -/
  | otherwise
  /-- The tag `end`, with the kind of block that it says it ends. -/
  | ends (kind : Option String)
  | placeholder (name : String) (recursive : Bool)
  deriving DecidableEq, Repr

/-- The word that marks a directive as recursive. -/
def recursionFlag : String := "/r"

def nonempty? (word : String) : Option String :=
  if word = "" then none else some word

/-- Whether an `end` with this kind may close what was opened. -/
def Opening.endedBy (opening : Opening) : Option String → Bool
  | none => true
  | some kind =>
    match opening with
    | .condition .. => kind == "if"
    | .iteration _ => kind == "foreach"

/-- What a tag says; nothing if it opens a block without a name. -/
def Directive.ofTag? (tag : Tag) : Option Directive :=
  match tag.first with
  | "if" => (nonempty? tag.second).map fun name =>
      .opens (.condition name (tag.third == recursionFlag))
  | "foreach" => (nonempty? tag.second).map fun name => .opens (.iteration name)
  | "else" => some .otherwise
  | "end" => some (.ends (nonempty? tag.second))
  | name => some (.placeholder name (tag.second == recursionFlag))

end Stencil
