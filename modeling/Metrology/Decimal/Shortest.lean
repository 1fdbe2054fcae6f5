import Metrology.Decimal.Basic

/-!
# Shortest decimals of a double

A grid holds the multiples of a power of ten. `Decimal.ofFloat?` searches the grids from coarse to
fine for a neighbour of the double that reads back as the same double: the first hit has the
fewest digits, and of two hits on one grid the nearer wins. A `Tie` settles which one that is when
both are as near.
-/

namespace Metrology.Decimal

/-- `m · 2 ^ q` over `10 ^ g`, as numerator and denominator. -/
def gridRatio (m : Nat) (q g : Int) : Nat × Nat :=
  (m * Nat.pow 2 q.toNat * Nat.pow 10 (-g).toNat, Nat.pow 2 (-q).toNat * Nat.pow 10 g.toNat)

/-- The one of two equally near multiples that is taken. -/
inductive Tie where
  | up
  | even
  deriving DecidableEq, Repr

/-- Whether `num / den` goes to the multiple above it. -/
def Tie.goesUp (tie : Tie) (num den : Nat) : Bool :=
  match compare (2 * (num % den)) den with
  | .lt => false
  | .gt => true
  | .eq => tie == up || num / den % 2 == 1

/-- The neighbour of `m · 2 ^ q` on the grid `10 ^ g` that reads back as `x`. -/
def onGrid? (tie : Tie) (x : Float) (m : Nat) (q g : Int) : Option Decimal :=
  let (num, den) := gridRatio m q g
  let lower := ofParts false (num / den) g
  let upper := ofParts false (num / den + 1) g
  if lower.toFloat = x then
    if upper.toFloat = x ∧ tie.goesUp num den then some upper else some lower
  else if upper.toFloat = x then some upper
  else none

/-- A grid above `m · 2 ^ q`, by `log₁₀ 2 < 30103 / 100000`. -/
def coarsestGrid (m : Nat) (q : Int) : Int :=
  (m.log2 + 1 + q) * 30103 / 100000 + 2

/-- `m · 2 ^ q` written out in full. -/
def expansion (m : Nat) (q : Int) : Decimal :=
  ofParts false (m * Nat.pow 2 q.toNat * Nat.pow 5 (-q).toNat) (if q < 0 then q else 0)

/-- The shortest decimal that reads back as `x = m · 2 ^ q`. Seventeen digits always suffice. -/
def shortest (tie : Tie) (x : Float) (m : Nat) (q : Int) : Decimal :=
  let hit := (List.range 24).findSome? fun i : Nat => onGrid? tie x m q (coarsestGrid m q - i)
  hit.getD (expansion m q)

/-- The shortest decimal that reads back as the finite double `x`. -/
def ofFloat? (tie : Tie) (x : Float) : Option Decimal :=
  match x.toModel.unpack with
  | .finite sign m q _ => some { shortest tie x.abs m q with negative := sign matches .negative }
  | .zero sign => some ⟨sign matches .negative, 0, 0⟩
  | _ => none

end Metrology.Decimal
