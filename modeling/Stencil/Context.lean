import Stencil.Value
import Stencil.Name

/-!
# Contexts

The position in the data that names are read from: the current value, its path and the root that
the path starts from. A render starts at the root of its data, unless it is given a context.
-/

namespace Stencil

/-- A position in the data. -/
structure Context (σ : Type) where
  current : Value σ
  path : String
  root : Value σ

def Context.atRoot {σ : Type} (root : Value σ) : Context σ := ⟨root, "", root⟩

/-- The value that some names and list positions lead to, one by one. -/
def Value.descend? {σ : Type} (root : Value σ) (names : List String) : Option (Value σ) :=
  names.foldlM Value.child? root

end Stencil
