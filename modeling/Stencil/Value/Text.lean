import Stencil.Value
import Stencil.Decimal.Layout

/-!
# The text of a value

What a placeholder emits for a value: texts as they are, numbers in plain digits, nothing for
null, and the members of a list with commas between them. Maps and what the host supplies have no
text and emit a word in brackets.
-/

namespace Stencil.Value

variable {σ : Type}

mutual

/-- The text of a value. -/
def toText : Value σ → String
  | .null => ""
  | .bool value => if value then "true" else "false"
  | .integer value => toString value.toInt
  | .float value => Decimal.plain.text value
  | .text value => value
  | .list items => itemsText items
  | .map _ => "[map]"
  | .computed .. => "[function]"
  | .collection .. => "[collection]"

def itemsText : List (Value σ) → String
  | [] => ""
  | [item] => toText item
  | item :: items => toText item ++ "," ++ itemsText items

end

end Stencil.Value
