/-!
# Character classes as ranges

A class of characters is given as the list of its ranges of code points, both ends included.
-/

namespace Stencil.Text

/-- The ranges of code points of a class of characters. -/
abbrev Ranges := List (Nat × Nat)

def Ranges.contains (ranges : Ranges) (c : Char) : Bool :=
  ranges.any fun range => range.1 ≤ c.toNat && c.toNat ≤ range.2

/-- The number of code points in the ranges, if they are disjoint. -/
def Ranges.size (ranges : Ranges) : Nat :=
  ranges.foldl (fun size range => size + (range.2 + 1 - range.1)) 0

end Stencil.Text
