import Stencil.Decimal.Shortest

/-!
# Layouts for numbers

How the decimal of a floating point number is laid out: which numbers are written with all their
zeros and which with a power of ten, and whether a whole number shows that it is one of the
floating point numbers. The library has three layouts.
-/

namespace Stencil.Decimal

structure Layout where
  /-- The exponents of the leading digit that are written without a power of ten. -/
  positional : Int → Bool
  /-- The least number of places behind the point where there is no power of ten. -/
  places : Nat
  /-- Whether a power of ten that is not negative is written with a plus. -/
  plus : Bool
  /-- Which of two equally near decimals is taken. -/
  ties : Ties

/-- The layout of rendered text: never a power of ten, and no places unless needed. -/
def plain : Layout := ⟨fun _ => true, 0, false, .up⟩

/-- The layout of shown values: from a ten thousandth up to, but not including, ten to the
sixteenth without a power of ten. -/
def shown : Layout := ⟨fun lead => -4 ≤ lead && lead < 16, 1, false, .up⟩

/-- The layout of JSON: as for shown values, but from a hundred thousandth on and with a plus before
a power of ten that is not negative, and ties go to the even digit. -/
def json : Layout := ⟨fun lead => -5 ≤ lead && lead < 16, 1, true, .even⟩

/-- The decimal `d · 10 ^ k` in a layout. -/
def Layout.apply (layout : Layout) (negative : Bool) (d : Nat) (k : Int) : Numeral :=
  let behind := (digits d).length - 1
  let lead := k + behind
  if layout.positional lead then
    let places := max layout.places (-k).toNat
    ⟨negative, d * Nat.pow 10 (k + places).toNat, places, none⟩
  else ⟨negative, d, behind, some ⟨lead, layout.plus⟩⟩

def Layout.numeral? (layout : Layout) (x : Float) : Option Numeral :=
  match shape x with
  | .finite negative m q =>
    let (d, k) := shortest layout.ties m q
    some (layout.apply negative d k)
  | _ => none

/-- A number in a layout, with words for what is no finite number. -/
def Layout.text (layout : Layout) (x : Float) : String :=
  match shape x with
  | .nan => "NaN"
  | .infinite false => "inf"
  | .infinite true => "-inf"
  | .finite .. => (layout.numeral? x).elim "" fun n => String.ofList n.print

example : (plain.apply false 125 (-1)).print = "12.5".toList := by decide +kernel
example : (plain.apply false 1 21).print = "1000000000000000000000".toList := by decide +kernel
example : (shown.apply true 0 0).print = "-0.0".toList := by decide +kernel
example : (shown.apply false 15 (-6)).print = "1.5e-5".toList := by decide +kernel
example : (shown.apply false 15 20).print = "1.5e21".toList := by decide +kernel
example : (json.apply false 15 20).print = "1.5e+21".toList := by decide +kernel
example : (json.apply false 15 (-6)).print = "0.000015".toList := by decide +kernel

end Stencil.Decimal
