import Metrology.Decimal.Numeral

/-!
# Scalars

Amounts and multipliers are numbers of one type `α`. The program computes with doubles; every
definition takes any `Scalar`, so that the same code also runs on exact numbers.
-/

namespace Metrology

/-- Arithmetic and comparison, with the doubles among the values. -/
class Scalar (α : Type) extends Add α, Sub α, Mul α, Div α, Neg α, BEq α where
  ofFloat : Float → α
  abs : α → α
  lt : α → α → Bool
  le : α → α → Bool
  isFinite : α → Bool
  numeral : α → Numeral

namespace Scalar

instance : Scalar Float where
  ofFloat := id
  abs := Float.abs
  lt a b := a < b
  le a b := a ≤ b
  isFinite := Float.isFinite
  numeral := Numeral.ofFloat

variable {α : Type} [Scalar α]

def one : α := ofFloat 1

/-- `r · x ^ n` by repeated squaring; the last square is never taken. -/
def mulPow (r x : α) (n : Nat) : α :=
  let r := if n % 2 = 1 then r * x else r
  if h : n / 2 = 0 then r else mulPow r (x * x) (n / 2)
termination_by n
decreasing_by omega

/-- `x ^ n`; a negative power is the reciprocal of the positive one. -/
def pow (x : α) (n : Int) : α :=
  let r := mulPow one x n.natAbs
  if n < 0 then one / r else r

/-! ### Approximate equality -/

def defaultTolerance : α := ofFloat 1e-9

/-- Differences below this count as none, whatever the tolerance. -/
def leastDifference : α := ofFloat 1e-300

def larger (a b : α) : α :=
  if le a b then b else a

/-- Equal, or both finite and apart by at most `tolerance` times the larger magnitude. -/
def isNear (tolerance a b : α) : Bool :=
  a == b || (isFinite a && isFinite b &&
    (lt (abs (a - b)) leastDifference || le (abs (a - b)) (tolerance * larger (abs a) (abs b))))

end Scalar

end Metrology
