import Stencil.Decimal.Numeral

/-!
# Shortest decimals

A floating point number is written with the fewest digits that read back as the same number. Of
several such decimals the nearest to the number is taken, and where two are equally near, a rule
decides. All comparisons are made in whole numbers: a number is `m · 2 ^ q`, the numbers that read
back as it are those between the midpoints to its neighbours, and a decimal is a point `d` of the
grid of multiples of `10 ^ k`.
-/

namespace Stencil.Decimal

/-- What a floating point number is. -/
inductive Shape where
  | nan
  | infinite (negative : Bool)
  /-- The number `mantissa · 2 ^ exponent`. -/
  | finite (negative : Bool) (mantissa : Nat) (exponent : Int)
  deriving DecidableEq, Repr

/-- The number of fractions that share an exponent, which is also the least mantissa of a number
that is not subnormal: 52 bits hold the fraction. -/
def fractions : Nat := Nat.pow 2 52

/-- The number of exponents: 11 bits hold one. -/
def exponents : Nat := Nat.pow 2 11

/-- The shape that the bits of a number encode: a sign, an exponent and a fraction. -/
def shapeOfBits (bits : Nat) : Shape :=
  let fraction := bits % fractions
  let biased : Nat := bits / fractions % exponents
  let negative := bits / (fractions * exponents) == 1
  if biased = exponents - 1 then
    if fraction = 0 then .infinite negative else .nan
  else if biased = 0 then .finite negative fraction (-1074)
  else .finite negative (fractions + fraction) (biased - 1075)

def shape (x : Float) : Shape := shapeOfBits x.toBits.toNat

/-- Which of two equally near decimals is taken. -/
inductive Ties where
  /-- The greater. -/
  | up
  /-- The one with the even last digit. -/
  | even
  deriving DecidableEq, Repr

/-- A number in quarters of its last binary place, with the ends of the interval of what reads back
as it. The ends belong to the interval if the mantissa is even. -/
structure Interval where
  lower : Nat
  value : Nat
  upper : Nat
  closed : Bool

/-- The interval of `m · 2 ^ q`. Below a power of two the neighbour is only half as far, except
where the exponent has reached its least value. -/
def intervalOf (m : Nat) (q : Int) : Interval :=
  ⟨if m = fractions ∧ -1074 < q then 4 * m - 1 else 4 * m - 2, 4 * m, 4 * m + 2, m % 2 == 0⟩

/-- Whether the grid point `d` of step `step` lies in the interval with this unit. -/
def Interval.holds (interval : Interval) (unit step d : Nat) : Bool :=
  if interval.closed then
    interval.lower * unit ≤ d * step && d * step ≤ interval.upper * unit
  else interval.lower * unit < d * step && d * step < interval.upper * unit

/-- The nearest of the two neighbours of the value on a grid that lies in the interval. -/
def Interval.nearest? (interval : Interval) (ties : Ties) (unit step : Nat) : Option Nat :=
  let value := interval.value * unit
  let below := value / step
  let above := below + 1
  match interval.holds unit step below, interval.holds unit step above with
  | false, false => none
  | true, false => some below
  | false, true => some above
  | true, true =>
    if value - below * step < above * step - value then some below
    else if above * step - value < value - below * step then some above
    else
      match ties with
      | .up => some above
      | .even => some (if below % 2 = 0 then below else above)

/-- The exponent of the leading digit of `m · 2 ^ q`. The least positive number is above
`10 ^ -330`. -/
def leadingExponent (m : Nat) (q : Int) : Int :=
  let scaled := m * Nat.pow 2 q.toNat * Nat.pow 10 330 / Nat.pow 2 (-q).toNat
  (digits scaled).length - 331

/-- A decimal `d · 10 ^ k` without zeros at the end of its digits. -/
def stripZeros (d : Nat) (k : Int) : Nat × Int :=
  if d ≠ 0 ∧ d % 10 = 0 then stripZeros (d / 10) (k + 1) else (d, k)
termination_by d
decreasing_by omega

/-- The shortest decimal `d · 10 ^ k` that reads back as `m · 2 ^ q`. Grids are tried from coarse to
fine, with both factors scaled to whole numbers; seventeen digits are always enough. -/
def shortest (ties : Ties) (m : Nat) (q : Int) : Nat × Int :=
  if m = 0 then (0, 0)
  else
    let interval := intervalOf m q
    let lead := leadingExponent m q
    let found := (List.range 17).findSome? fun (count : Nat) =>
      let k := lead - count
      let unit := Nat.pow 2 (q - 2).toNat * Nat.pow 10 (-k).toNat
      let step := Nat.pow 2 (2 - q).toNat * Nat.pow 10 k.toNat
      (interval.nearest? ties unit step).map fun d => stripZeros d k
    found.getD (0, 0)

/-- One, a tenth, and the least positive number. -/
example : shortest .up fractions (-52) = (1, 0) := by decide +kernel
example : shortest .up 7205759403792794 (-56) = (1, -1) := by decide +kernel
example : shortest .even 1 (-1074) = (5, -324) := by decide +kernel

end Stencil.Decimal
