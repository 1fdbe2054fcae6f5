/-!
# Decimals

A decimal is a sign, a significand and a power of ten. `Decimal.ofParts` drops the zeros that end
a significand, so that equal magnitudes have one spelling, and `Decimal.toFloat` is the nearest
double.
-/

namespace Metrology

/-- `± significand · 10 ^ exponent`. -/
structure Decimal where
  negative : Bool
  significand : Nat
  exponent : Int
  deriving DecidableEq, Repr

namespace Decimal

/-- Moves the zeros that end `m` into the exponent. -/
def strip (m : Nat) (e : Int) : Nat × Int :=
  if h : m ≠ 0 ∧ m % 10 = 0 then strip (m / 10) (e + 1) else (m, if m = 0 then 0 else e)
termination_by m
decreasing_by omega

/-- `± m · 10 ^ e`, spelled with the shortest significand. -/
def ofParts (negative : Bool) (m : Nat) (e : Int) : Decimal :=
  ⟨negative, (strip m e).1, (strip m e).2⟩

/-- The double nearest to `d`, ties to even. -/
def toFloat (d : Decimal) : Float :=
  let x := Float.ofScientific d.significand (decide (d.exponent < 0)) d.exponent.natAbs
  if d.negative then -x else x

def digits (d : Decimal) : List Char :=
  Nat.toDigits 10 d.significand

/-- The power of ten of the leading digit. -/
def magnitude (d : Decimal) : Int :=
  d.exponent + d.digits.length - 1

end Decimal

end Metrology
