/-!
# Numerals

A number as it is written in decimal: an optional sign, digits with an optional point, and an
optional power of ten. A numeral keeps its digits, so `1.50` and `1.5` are different numerals.
-/

namespace Stencil

structure Exponent where
  value : Int
  /-- Whether a plus stands where a negative power has its sign. -/
  plus : Bool
  deriving DecidableEq, Repr

/-- An optional sign, digits of which the last `places` stand behind the point, and an optional
power of ten. -/
structure Numeral where
  negative : Bool
  /-- The number that the digits spell without the point. -/
  mantissa : Nat
  places : Nat
  exponent : Option Exponent
  deriving DecidableEq, Repr

/-- The digits of a whole number. -/
def digits (n : Nat) : List Char := Nat.toDigits 10 n

def Exponent.print (power : Exponent) : List Char :=
  'e' :: ((if power.value < 0 then ['-'] else if power.plus then ['+'] else []) ++
    digits power.value.natAbs)

namespace Numeral

def ofNat (n : Nat) : Numeral := ⟨false, n, 0, none⟩

/-- A whole number with a sign. -/
def ofInt (n : Int) : Numeral := ⟨n < 0, n.natAbs, 0, none⟩

/-- The number that a numeral spells, if it has no sign, no point and no exponent. -/
def toNat? : Numeral → Option Nat
  | ⟨false, n, 0, none⟩ => some n
  | _ => none

/-- The number that a numeral spells, if it has no point and no exponent. A negative zero is none,
for whole numbers would lose its sign. -/
def toInt? : Numeral → Option Int
  | ⟨false, n, 0, none⟩ => some n
  | ⟨true, n, 0, none⟩ => if n = 0 then none else some (-n)
  | _ => none

/-! ## Writing -/

/-- The digits behind the point, with the point. -/
def fractionChars (n : Numeral) : List Char :=
  if n.places = 0 then []
  else '.' :: (digits (n.mantissa % Nat.pow 10 n.places)).leftpad n.places '0'

def print (n : Numeral) : List Char :=
  (if n.negative then ['-'] else []) ++ digits (n.mantissa / Nat.pow 10 n.places) ++
    n.fractionChars ++ n.exponent.elim [] Exponent.print

@[simp] theorem toNat?_ofNat (n : Nat) : (ofNat n).toNat? = some n := rfl

/-- A whole number is written as its digits. -/
theorem print_ofNat (n : Nat) : (ofNat n).print = digits n := by
  simp [print, ofNat, fractionChars]

end Numeral

example : (Numeral.mk true 105 2 (some ⟨-7, true⟩)).print = "-1.05e-7".toList := by decide +kernel
example : (Numeral.mk false 1 0 (some ⟨16, true⟩)).print = "1e+16".toList := by decide +kernel
example : (Numeral.mk false 50 3 none).print = "0.050".toList := by decide +kernel

end Stencil
