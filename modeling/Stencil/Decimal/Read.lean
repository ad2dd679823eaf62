import Stencil.Decimal.Numeral

/-!
# Reading numbers

Numerals and texts as floating point numbers, rounded to the nearest; a tie goes to the even
neighbour, and what is too large becomes infinite.
-/

namespace Stencil.Decimal

/-- What makes a floating point number of a decimal. -/
structure Rounding (α : Type) where
  /-- The number `mantissa · 10 ^ exponent`, or with the flag `mantissa · 10 ^ -exponent`. -/
  ofScientific : Nat → Bool → Nat → α
  infinite : α
  nan : α
  negate : α → α

def double : Rounding Float :=
  ⟨Float.ofScientific, Float.ofBits 0x7FF0000000000000, Float.ofBits 0x7FF8000000000000, Float.neg⟩

def single : Rounding Float32 :=
  ⟨Float32.ofScientific, Float32.ofBits 0x7F800000, Float32.ofBits 0x7FC00000, Float32.neg⟩

/-- The number of a numeral. Numerals that are out of reach by far are decided by their size
alone. -/
def Rounding.round {α : Type} (rounding : Rounding α) (n : Numeral) : α :=
  let power := n.exponent.elim 0 Exponent.value - n.places
  let size := power + (digits n.mantissa).length
  let magnitude :=
    if n.mantissa = 0 ∨ size < -400 then rounding.ofScientific 0 false 0
    else if 400 < size then rounding.infinite
    else rounding.ofScientific n.mantissa (power < 0) power.natAbs
  if n.negative then rounding.negate magnitude else magnitude

def ofNumeral (n : Numeral) : Float := double.round n

/-- Whether a minus stands in front of a number, and what follows the sign. -/
def cutSign : List Char → Bool × List Char
  | '-' :: rest => (true, rest)
  | '+' :: rest => (false, rest)
  | text => (false, text)

/-- The value of a text of digits, which must not be empty. -/
def digits? (text : List Char) : Option Nat :=
  if text.isEmpty || !text.all Char.isDigit then none else some (Nat.ofDigitChars 10 text 0)

def power? : List Char → Option (Option Exponent)
  | [] => some none
  | c :: text =>
    let (negative, found) := cutSign text
    if c = 'e' ∨ c = 'E' then
      (digits? found).map fun n => some ⟨if negative then -(n : Int) else n, text.head? == some '+'⟩
    else none

/-- A number without a sign: digits, a point among them or at either end, and an optional power of
ten. -/
def unsigned? (negative : Bool) (text : List Char) : Option Numeral :=
  let whole := text.takeWhile Char.isDigit
  let rest := text.dropWhile Char.isDigit
  let (fraction, rest) := match rest with
    | '.' :: rest => (rest.takeWhile Char.isDigit, rest.dropWhile Char.isDigit)
    | rest => ([], rest)
  match digits? (whole ++ fraction), power? rest with
  | some mantissa, some exponent => some ⟨negative, mantissa, fraction.length, exponent⟩
  | _, _ => none

/-- The number that a text spells: a sign, and then digits or a word for what is no finite number,
in letters of either case. -/
def Rounding.read? {α : Type} (rounding : Rounding α) (text : String) : Option α :=
  let (negative, body) := cutSign text.toList
  let word := String.ofList (body.map Char.toLower)
  let signed (x : α) : α := if negative then rounding.negate x else x
  if word = "inf" ∨ word = "infinity" then some (signed rounding.infinite)
  else if word = "nan" then some rounding.nan
  else (unsigned? negative body).map rounding.round

end Stencil.Decimal
