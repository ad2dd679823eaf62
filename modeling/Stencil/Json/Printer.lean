import Stencil.Json

/-!
# Writing JSON

Documents are written without white space. Strings escape the quote, the backslash and the
controls below U+0020, with a letter where JSON has one and as four digits elsewhere; every other
character is written as it is.
-/

namespace Stencil

/-! ## Strings -/

namespace Json

def escapeChar (c : Char) : List Char :=
  match c with
  | '"' => ['\\', '"']
  | '\\' => ['\\', '\\']
  | '\x08' => ['\\', 'b']
  | '\t' => ['\\', 't']
  | '\n' => ['\\', 'n']
  | '\x0c' => ['\\', 'f']
  | '\r' => ['\\', 'r']
  | c =>
    if c.toNat < 0x20 then
      ['\\', 'u', '0', '0', Nat.digitChar (c.toNat / 16), Nat.digitChar (c.toNat % 16)]
    else [c]

/-- A string in quotes. What is no text is written as half of a surrogate pair. -/
def printString : Option String → List Char
  | some text => '"' :: text.toList.flatMap escapeChar ++ ['"']
  | none => "\"\\ud800\"".toList

/-! ## Documents -/

mutual

def print : Json → List Char
  | .null => "null".toList
  | .bool true => "true".toList
  | .bool false => "false".toList
  | .number n => n.print
  | .string text => printString text
  | .array [] => ['[', ']']
  | .array (item :: items) => '[' :: (print item ++ printItems items)
  | .object [] => ['\x7b', '\x7d']
  | .object ((name, value) :: fields) =>
    '\x7b' :: (printString name ++ ':' :: (print value ++ printFields fields))

/-- The items of an array after the first, with the end of the array. -/
def printItems : List Json → List Char
  | [] => [']']
  | item :: items => ',' :: (print item ++ printItems items)

/-- The fields of an object after the first, with the end of the object. -/
def printFields : List (Option String × Json) → List Char
  | [] => ['\x7d']
  | (name, value) :: fields =>
    ',' :: (printString name ++ ':' :: (print value ++ printFields fields))

end

def toText (doc : Json) : String := String.ofList doc.print

end Json

example : (Json.record [("a", .array [.nat 1, .null])]).print =
    "\x7b\"a\":[1,null]\x7d".toList := by decide +kernel

end Stencil
