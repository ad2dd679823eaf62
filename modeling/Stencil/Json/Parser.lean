import Stencil.Json

/-!
# Reading JSON

A reader of the JSON grammar, without any leniency: no leading zeros, no raw control characters
in strings, nothing but white space around the document. Every function reads something from the
front of a text and gives it with the text behind it. The nesting of a document is not limited.
-/

namespace Stencil

/-! ## Numbers -/

namespace Numeral

def digits? (text : List Char) : Option (List Char × List Char) :=
  let found := text.takeWhile Char.isDigit
  if found.isEmpty then none else some (found, text.dropWhile Char.isDigit)

/-- The digits before the point, where a zero stands alone. -/
def whole? : List Char → Option (List Char × List Char)
  | '0' :: rest => some (['0'], rest)
  | text => digits? text

def fraction? : List Char → Option (List Char × List Char)
  | '.' :: rest => digits? rest
  | text => some ([], text)

def power? (text : List Char) : Option (Nat × List Char) :=
  (digits? text).map fun (found, rest) => (Nat.ofDigitChars 10 found 0, rest)

def exponent? : List Char → Option (Option Exponent × List Char)
  | c :: rest =>
    if c = 'e' ∨ c = 'E' then
      match rest with
      | '-' :: rest => (power? rest).map fun (n, rest) => (some ⟨-n, false⟩, rest)
      | '+' :: rest => (power? rest).map fun (n, rest) => (some ⟨n, true⟩, rest)
      | rest => (power? rest).map fun (n, rest) => (some ⟨n, false⟩, rest)
    else some (none, c :: rest)
  | [] => some (none, [])

def read? (text : List Char) : Option (Numeral × List Char) := do
  let (negative, text) := match text with
    | '-' :: rest => (true, rest)
    | text => (false, text)
  let (whole, text) ← whole? text
  let (fraction, text) ← fraction? text
  let (exponent, text) ← exponent? text
  some (⟨negative, Nat.ofDigitChars 10 (whole ++ fraction) 0, fraction.length, exponent⟩, text)

end Numeral

/-! ## Strings -/

namespace Json.Parser

/-- What one step through a string spells. -/
inductive Piece where
  | char (c : Char)
  /-- A code unit of a surrogate pair. -/
  | half (unit : Nat)

def hexValue? (c : Char) : Option Nat :=
  if c.isDigit then some (c.toNat - '0'.toNat)
  else if 'a' ≤ c ∧ c ≤ 'f' then some (c.toNat - 'a'.toNat + 10)
  else if 'A' ≤ c ∧ c ≤ 'F' then some (c.toNat - 'A'.toNat + 10)
  else none

/-- What four hexadecimal digits spell. -/
def unit? (a b c d : Char) : Option Piece := do
  let high := (← hexValue? a) * 16 + (← hexValue? b)
  let low := (← hexValue? c) * 16 + (← hexValue? d)
  let unit := high * 256 + low
  some (if 0xD800 ≤ unit ∧ unit ≤ 0xDFFF then .half unit else .char (Char.ofNat unit))

/-- The character that a letter behind a backslash spells. -/
def unescape? : Char → Option Char
  | '"' => some '"'
  | '\\' => some '\\'
  | '/' => some '/'
  | 'b' => some '\x08'
  | 'f' => some '\x0c'
  | 'n' => some '\n'
  | 'r' => some '\r'
  | 't' => some '\t'
  | _ => none

/-- The inside of a string, up to its closing quote. -/
def pieces? : List Char → Option (List Piece × List Char)
  | '"' :: rest => some ([], rest)
  | '\\' :: 'u' :: a :: b :: c :: d :: rest => do
    let piece ← unit? a b c d
    let (more, rest) ← pieces? rest
    some (piece :: more, rest)
  | '\\' :: letter :: rest => do
    let c ← unescape? letter
    let (more, rest) ← pieces? rest
    some (.char c :: more, rest)
  | c :: rest =>
    if c.toNat < 0x20 then none
    else (pieces? rest).map fun (more, rest) => (.char c :: more, rest)
  | [] => none

/-- The character of a surrogate pair, if the halves are a pair. -/
def pair? (high low : Nat) : Option Char :=
  if high < 0xDC00 ∧ 0xDC00 ≤ low then
    some (Char.ofNat (0x10000 + (high - 0xD800) * 0x400 + (low - 0xDC00)))
  else none

/-- The characters that pieces spell, if every half is half of a pair. -/
def join? : List Piece → Option (List Char)
  | [] => some []
  | .char c :: rest => (join? rest).map (c :: ·)
  | .half high :: .half low :: rest => do
    let c ← pair? high low
    let more ← join? rest
    some (c :: more)
  | .half _ :: _ => none

/-- A string behind its opening quote. -/
def string? (text : List Char) : Option (Option String × List Char) :=
  (pieces? text).map fun (pieces, rest) => ((join? pieces).map String.ofList, rest)

/-! ## Documents -/

def isSpace (c : Char) : Bool :=
  c == ' ' || c == '\n' || c == '\t' || c == '\r'

def skipSpace (text : List Char) : List Char :=
  text.dropWhile isSpace

/-- The name of a field with its colon. -/
def name? (text : List Char) : Option (Option String × List Char) :=
  match skipSpace text with
  | '"' :: rest => do
    let (name, rest) ← string? rest
    match skipSpace rest with
    | ':' :: rest => some (name, rest)
    | _ => none
  | _ => none

mutual

/-- A value, with white space before it. What begins like no other value has to be a number. Each
level of nesting and each item takes one of `fuel`. -/
def value? : Nat → List Char → Option (Json × List Char)
  | 0, _ => none
  | fuel + 1, text =>
    match skipSpace text with
    | 'n' :: 'u' :: 'l' :: 'l' :: rest => some (.null, rest)
    | 't' :: 'r' :: 'u' :: 'e' :: rest => some (.bool true, rest)
    | 'f' :: 'a' :: 'l' :: 's' :: 'e' :: rest => some (.bool false, rest)
    | '"' :: rest => (string? rest).map fun (text, rest) => (.string text, rest)
    | '[' :: rest =>
      match skipSpace rest with
      | ']' :: rest => some (.array [], rest)
      | _ => (items? fuel rest).map fun (items, rest) => (.array items, rest)
    | '\x7b' :: rest =>
      match skipSpace rest with
      | '\x7d' :: rest => some (.object [], rest)
      | _ => (fields? fuel rest).map fun (fields, rest) => (.object fields, rest)
    | text => (Numeral.read? text).map fun (n, rest) => (.number n, rest)

/-- At least one item, with the end of the array. -/
def items? : Nat → List Char → Option (List Json × List Char)
  | 0, _ => none
  | fuel + 1, text => do
    let (item, rest) ← value? fuel text
    match skipSpace rest with
    | ',' :: rest => (items? fuel rest).map fun (items, rest) => (item :: items, rest)
    | ']' :: rest => some ([item], rest)
    | _ => none

/-- At least one field, with the end of the object. -/
def fields? : Nat → List Char → Option (List (Option String × Json) × List Char)
  | 0, _ => none
  | fuel + 1, text => do
    let (name, rest) ← name? text
    let (value, rest) ← value? fuel rest
    match skipSpace rest with
    | ',' :: rest => (fields? fuel rest).map fun (fields, rest) => ((name, value) :: fields, rest)
    | '\x7d' :: rest => some ([(name, value)], rest)
    | _ => none

end

end Json.Parser

open Json.Parser in
def Json.ofText? (text : String) : Option Json :=
  match value? (text.toList.length + 1) text.toList with
  | some (doc, rest) => if (skipSpace rest).isEmpty then some doc else none
  | none => none

end Stencil
