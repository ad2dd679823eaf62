import Stencil.Value

/-!
# Equality of values

Plain values are equal when they hold the same data; a number that is no number equals nothing,
not even itself. What the host supplies is equal only to itself, however it is passed around.
-/

namespace Stencil.Value

variable {σ : Type}

mutual

def same : Value σ → Value σ → Bool
  | .null, .null => true
  | .bool a, .bool b => a == b
  | .integer a, .integer b => a == b
  | .float a, .float b => a == b
  | .text a, .text b => a == b
  | .list a, .list b => sameItems a b
  | .map a, .map b => sameEntries a b
  | .computed a _, .computed b _ => a == b
  | .collection a kind _, .collection b kind' _ => a == b && kind == kind'
  | _, _ => false

def sameItems : List (Value σ) → List (Value σ) → Bool
  | [], [] => true
  | a :: as, b :: bs => same a b && sameItems as bs
  | _, _ => false

def sameEntries : List (String × Value σ) → List (String × Value σ) → Bool
  | [], [] => true
  | (name, a) :: as, (name', b) :: bs => name == name' && same a b && sameEntries as bs
  | _, _ => false

end

instance : BEq (Value σ) := ⟨same⟩

end Stencil.Value
