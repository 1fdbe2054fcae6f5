import Metrology.Scalar

/-!
# Rational scalars

Exact arithmetic: a finite double stands for the rational `± m · 2 ^ q` that it is, and every
operation is the exact one.
-/

namespace Metrology.Scalar

/-- The exact value of a finite double; infinities and NaN have none and count as zero. -/
def exactValue (x : Float) : Rat :=
  match x.toModel.unpack with
  | .finite .positive m q _ => (m : Rat) * 2 ^ q
  | .finite .negative m q _ => -((m : Rat) * 2 ^ q)
  | _ => 0

/-- A fraction in lowest terms. -/
def fractionNumeral (x : Rat) : Numeral :=
  ⟨Text.plain x.num ++ if x.den = 1 then [] else '/' :: Nat.toDigits 10 x.den, none⟩

instance : Scalar Rat where
  ofFloat := exactValue
  abs := Rat.abs
  lt a b := a < b
  le a b := a ≤ b
  isFinite _ := true
  numeral := fractionNumeral

end Metrology.Scalar
