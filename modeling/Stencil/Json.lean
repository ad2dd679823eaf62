import Stencil.Decimal.Numeral

/-!
# JSON documents

A document as it is written, before anything is asked of it. Fields keep their order and may
repeat, numbers keep their digits and are not limited in size, and a string keeps only whether it
is a text: one that spells half of a surrogate pair is none.
-/

namespace Stencil

inductive Json where
  | null
  | bool (value : Bool)
  | number (value : Numeral)
  /-- A string, or nothing if what it spells is not a text. -/
  | string (value : Option String)
  | array (items : List Json)
  | object (fields : List (Option String × Json))
  deriving Repr

namespace Json

/-- A string that is a text. -/
def text (value : String) : Json := .string (some value)

/-- An object whose names are texts. -/
def record (fields : List (String × Json)) : Json :=
  .object (fields.map fun (name, value) => (some name, value))

/-- The number of arrays and objects that may be open at once where a document is read for its
contents. -/
def maxDepth : Nat := 127

def nat (n : Nat) : Json := .number (.ofNat n)

end Json

end Stencil
