import Stencil.Error
import Stencil.Table

/-!
# Values

The data that templates are rendered with. Beside plain data there are two kinds of values that
the host supplies: computed values, which are called when they are looked up, and collections,
which hand out their members one by one. Both run in the host's state, of type `σ`, and may change
it or fail.
-/

namespace Stencil

/-- How the host hands out the members of a collection. -/
inductive CollectionKind where
  /-- From a list or generator that starts anew each time. -/
  | iterator
  /-- By calling back with each member. -/
  | enumerator
  deriving DecidableEq, Repr

mutual

/-- Data to be rendered. -/
inductive Value (σ : Type) : Type where
  | null
  | bool (value : Bool)
  | integer (value : Int64)
  | float (value : Float)
  | text (value : String)
  | list (items : List (Value σ))
  /-- The entries are in order of their names, each name at most once. -/
  | map (entries : List (String × Value σ))
  /-- A value that the host computes whenever it is called. -/
  | computed (id : Nat) (call : σ → Reply σ)
  /-- Members that the host hands out one by one. -/
  | collection (id : Nat) (kind : CollectionKind) (pull : σ → Pull σ)

/-- What a call of a computed value gives, with the host's state after it. -/
inductive Reply (σ : Type) : Type where
  | value (state : σ) (result : Value σ)
  | failure (state : σ) (error : Error)

/-- What a collection gives when asked for a member, with the host's state after it. -/
inductive Pull (σ : Type) : Type where
  /-- There are no more members. -/
  | done (state : σ)
  | failure (state : σ) (error : Error)
  /-- A member, and what gives the next one. -/
  | member (state : σ) (item : Value σ) (next : σ → Pull σ)

end

namespace Value

variable {σ : Type}

instance : Inhabited (Value σ) := ⟨.null⟩

/-- A map of some entries. Of several with one name, the last counts. -/
def ofEntries (entries : List (String × Value σ)) : Value σ :=
  .map (Entries.ofList entries)

def ofOption : Option (Value σ) → Value σ
  | none => .null
  | some value => value

/-- Whether a value selects the first branch of a condition. Null, zero, what is no number, and
empty texts, lists and maps do not; what the host supplies does, whatever it would give. -/
def truthy : Value σ → Bool
  | .null => false
  | .bool value => value
  | .integer value => value != 0
  | .float value => value != 0 && !value.isNaN
  | .text value => value != ""
  | .list items => !items.isEmpty
  | .map entries => !entries.isEmpty
  | .computed .. | .collection .. => true

/-- Whether a value is a list or map without members. -/
def isEmptyContainer : Value σ → Bool
  | .list items => items.isEmpty
  | .map entries => entries.isEmpty
  | _ => false

def isNull : Value σ → Bool
  | .null => true
  | _ => false

/-- A list position: digits, with an optional plus sign, of at most 64 bits. -/
def position? (name : String) : Option Nat :=
  let digits := match name.toList with
    | '+' :: rest => rest
    | unsigned => unsigned
  if digits.isEmpty || !digits.all Char.isDigit then none
  else (some (Nat.ofDigitChars 10 digits 0)).filter (· < UInt64.size)

/-- The member of a map with a name, or of a list at a position. -/
def child? (owner : Value σ) (name : String) : Option (Value σ) :=
  match owner with
  | .map entries => entries.lookup name
  | .list items => (position? name).bind (items[·]?)
  | _ => none

end Value

example : Value.position? "+007" = some 7 := by decide +kernel
example : [Value.position? "", Value.position? "+", Value.position? "-1", Value.position? "1_0",
    Value.position? "18446744073709551616"] = [none, none, none, none, none] := by decide +kernel

end Stencil
