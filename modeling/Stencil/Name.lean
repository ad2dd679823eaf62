/-!
# Names and paths

A name says where a value is found: segments with points between them, each a member of the one
before. Leading groups `../` climb out of the current value first. A path is the name of the
current value, seen from the root of the data; at the root it is empty.
-/

namespace Stencil

/-! ## Segments -/

/-- The parts of a text between its points. There is always at least one. -/
def splitPoints : List Char → List (List Char)
  | [] => [[]]
  | c :: text =>
    if c = '.' then [] :: splitPoints text
    else
      match splitPoints text with
      | [] => [[c]]
      | part :: parts => (c :: part) :: parts

def segmentsOf (text : String) : List String :=
  (splitPoints text.toList).map String.ofList

theorem splitPoints_ne_nil (text : List Char) : splitPoints text ≠ [] := by
  cases text with
  | nil => simp [splitPoints]
  | cons c text =>
    rw [splitPoints]
    split
    · simp
    · split <;> simp

/-! ## Names -/

/-- A name, taken apart. -/
structure Name where
  /-- The number of leading groups `../`. -/
  climbs : Nat
  /-- The segments behind them. -/
  segments : List String
  deriving DecidableEq, Repr

namespace Name

/-- The number of leading groups `../` of a text, and the rest. -/
def cutClimbs : List Char → Nat × List Char
  | '.' :: '.' :: '/' :: rest => ((cutClimbs rest).1 + 1, (cutClimbs rest).2)
  | text => (0, text)

def ofText (text : String) : Name :=
  let (climbs, rest) := cutClimbs text.toList
  ⟨climbs, (splitPoints rest).map String.ofList⟩

end Name

/-! ## Paths -/

namespace Path

/-- The path of a member. -/
def join (path segment : String) : String :=
  if path = "" then segment else path ++ "." ++ segment

def ofSegments (segments : List String) : String :=
  ".".intercalate segments

/-- The path of the members of the value that a name leads to. -/
def item (path name : String) : String :=
  join path name ++ ".[item]"

end Path

example : Name.ofText "../../a.b" = ⟨2, ["a", "b"]⟩ := by decide +kernel
example : Name.ofText "a/../b" = ⟨0, ["a/", "", "/b"]⟩ := by decide +kernel
example : segmentsOf "" = [""] := by decide +kernel
example : Path.item "" "items" = "items.[item]" := by decide +kernel

end Stencil
