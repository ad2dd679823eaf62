import Stencil.Value
import Stencil.Json.Printer
import Stencil.Json.Parser
import Stencil.Decimal.Layout
import Stencil.Decimal.Read

/-!
# Values and JSON

Plain data as a JSON document, and a JSON document as plain data. JSON has no numbers that are not
finite; they become null. A whole number that 64 bits can hold is read as such, every other number
as the nearest floating point number.
-/

namespace Stencil.Value

variable {σ : Type}

mutual

/-- Plain data as a document. What the host supplies has to be evaluated first. -/
def toJson : Value σ → Json
  | .null | .computed .. | .collection .. => .null
  | .bool value => .bool value
  | .integer value => .number (.ofInt value.toInt)
  | .float value => (Decimal.json.numeral? value).elim .null .number
  | .text value => .text value
  | .list items => .array (itemsToJson items)
  | .map entries => .object (entriesToJson entries)

def itemsToJson : List (Value σ) → List Json
  | [] => []
  | item :: items => toJson item :: itemsToJson items

def entriesToJson : List (String × Value σ) → List (Option String × Json)
  | [] => []
  | (name, value) :: entries => (some name, toJson value) :: entriesToJson entries

end

/-- The number of a numeral, unless it is too large. -/
def ofNumeral? (n : Numeral) : Option (Value σ) :=
  let rounded := Decimal.ofNumeral n
  let float := if rounded.isFinite then some (.float rounded) else none
  match n.toInt? with
  | some whole =>
    if Int64.minValue.toInt ≤ whole ∧ whole ≤ Int64.maxValue.toInt then
      some (.integer (Int64.ofInt whole))
    else float
  | none => float

/-- The data of a document of at most so many arrays and objects inside each other. -/
def ofJson? : Nat → Json → Option (Value σ)
  | _, .null => some .null
  | _, .bool value => some (.bool value)
  | _, .number value => ofNumeral? value
  | _, .string value => value.map .text
  | depth + 1, .array items => (items.mapM (ofJson? depth)).map .list
  | depth + 1, .object fields => do
    let entries ← fields.mapM fun field => do some (← field.1, ← ofJson? depth field.2)
    some (ofEntries entries)
  | 0, _ => none

def ofJsonText? (text : String) : Option (Value σ) :=
  (Json.ofText? text).bind (ofJson? Json.maxDepth)

end Stencil.Value
