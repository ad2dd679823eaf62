import Stencil.Error
import Stencil.Text.Width

/-!
# Errors shown in their source

The long form of an error quotes the line of the source in which the directive starts, and marks
the directive with carets below it. Here `name` fails with the message `boom`:

       |
     1 | Hello [name]!
       |       ^^^^^^ boom

The place is given in bytes, while the carets are counted in display columns, by the rule `width`
that the functions below are given. A span that selects no region of the source is shown as well as
can be, with a single caret. Carets that would end beyond the last column that a line can be filled
up to cannot be set, and then there is no long form.
-/

namespace Stencil

/-- The lines of a text, where `line` is what the current line holds so far, last first. A line
end at the very end starts no further line. -/
def linesFrom (line : List Char) : List Char → List (List Char)
  | [] => if line.isEmpty then [] else [line.reverse]
  | c :: rest =>
    if c = '\n' then line.reverse :: linesFrom [] rest else linesFrom (c :: line) rest

/-- The line of a byte position, counted from zero, and its column; nothing past the last line. -/
def position? (width : List Char → Nat) : List (List Char) → Nat → Option (Nat × Nat)
  | [], _ => none
  | line :: lines, offset =>
    let size := byteLength line + 1
    if offset < size then some (0, (takeBytes line offset).elim 0 width)
    else (position? width lines (offset - size)).map fun (row, column) => (row + 1, column)

/-- The line and column of a byte position. A position past the end is behind the last line. -/
def position (width : List Char → Nat) (lines : List (List Char)) (offset : Nat) : Nat × Nat :=
  (position? width lines offset).getD (lines.length, lines.getLast?.elim 0 width)

/-- The last column that a line can be filled up to. -/
def maxColumns : Nat := 65535

/-- A line of a source with its number, and a message below it behind some carets. -/
def excerpt (number : Nat) (code : List Char) (column carets : Nat) (message : String) : String :=
  let number := toString number
  let margin := "".pushn ' ' number.length
  "\n " ++ margin ++ " |\n " ++ number ++ " | " ++ String.ofList code ++ "\n " ++ margin ++ " | " ++
    "".pushn ' ' column ++ "".pushn '^' carets ++ " " ++ message ++ "\n"

/-- A message below the line of the source that it is about, if there is room for the carets. -/
def showInSource? (width : List Char → Nat) (message : String) (place : Location) :
    Option String :=
  let source := place.source.toList
  let lines := linesFrom [] source
  let (row, column) := position width lines place.span.start
  let carets := max 1 ((place.span.select? source).elim 0 width)
  let code := ((lines[row]?).or lines.getLast?).getD []
  if column + carets ≤ maxColumns then some (excerpt (row + 1) code column carets message) else none

namespace Error

/-- The error with the line of the source it points to. -/
def pretty? (error : Error) : Option String :=
  match error.location with
  | some place => showInSource? Text.width error.message place
  | none => some error.unlocated

/-- The error with the line of the source it points to, and otherwise its bare message. -/
def debug? (error : Error) : Option String :=
  match error.location with
  | some place => showInSource? Text.width error.message place
  | none => some error.message

end Error

example : linesFrom [] "a\n\nb\n".toList = ["a".toList, [], "b".toList] := by decide
example : position Text.width (linesFrom [] "ab\ncd".toList) 4 = (1, 1) := by decide +kernel
example : position Text.width (linesFrom [] "ab\ncd".toList) 9 = (2, 2) := by decide +kernel

end Stencil
