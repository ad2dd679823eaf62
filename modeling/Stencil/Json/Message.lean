/-!
# Messages that end in a position

A message that is passed on through the writing of JSON may end in a position, such as
` at line 3 column 7`. The position is read and written again: its numbers lose their leading
zeros, and a position in line zero, which is none, is dropped.
-/

namespace Stencil.Json

/-- The text before and after the last occurrence of a marker. -/
def cutLast? (marker : List Char) : List Char → Option (List Char × List Char)
  | [] => none
  | c :: text =>
    match cutLast? marker text with
    | some (before, after) => some (c :: before, after)
    | none =>
      if marker.isPrefixOf (c :: text) then some ([], (c :: text).drop marker.length) else none

/-- The number of at most 64 bits at the front of a text, and the rest. -/
def cutNumber? (text : List Char) : Option (Nat × List Char) :=
  let found := text.takeWhile Char.isDigit
  let n := Nat.ofDigitChars 10 found 0
  if found.isEmpty || UInt64.size ≤ n then none else some (n, text.dropWhile Char.isDigit)

/-- The message and the position that a text ends in. -/
def cutPosition? (text : List Char) : Option (List Char × Nat × Nat) := do
  let (message, position) ← cutLast? " at line ".toList text
  let (line, rest) ← cutNumber? position
  guard (" column ".toList.isPrefixOf rest)
  let (column, rest) ← cutNumber? (rest.drop 8)
  guard rest.isEmpty
  some (message, line, column)

/-- A message after it has been passed on. -/
def passOn (text : String) : String :=
  match cutPosition? text.toList with
  | none => text
  | some (message, line, column) =>
    if line = 0 then String.ofList message
    else String.ofList message ++ " at line " ++ toString line ++ " column " ++ toString column

example : cutPosition? "x at line 03 column 7".toList = some (['x'], 3, 7) := by decide +kernel
example : cutPosition? "x at line 3 column 7.".toList = none := by decide +kernel

end Stencil.Json
