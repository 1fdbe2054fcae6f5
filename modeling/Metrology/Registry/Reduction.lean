import Metrology.Quantity.Format
import Metrology.Registry.Parse

/-!
# Reduction

`Registry.reduce` expands the units of a quantity pass by pass until only irreducible units without
a prefix are left, and then counts mass in kilograms. A scale such as `°C` is converted with its
offset only where it stands alone; elsewhere it scales like a difference.
-/

namespace Metrology.Registry

variable {α : Type} [Scalar α]

/-! ### One pass -/

/-- Replaces one factor of a quantity of amount `x` by its definition, or by itself without its
prefix: the new amount and the factors in its place. -/
def expand (r : Registry α) (x : α) (u : Factor α) : Except Error (α × List (Factor α)) :=
  match u.base.definition.metric? with
  | none => .ok (u.pre.elim x fun p => x * Scalar.pow p.multiplier u.exponent.val,
      [{ u with pre := none }])
  | some metric => do
    let q ← r.parse metric
    let scaled := { q with amount := q.amount * (u.multiplier * u.base.definition.slope) }
    let power ← scaled.pow u.exponent
    return (x * power.amount, power.units)

def expandAll (r : Registry α) (x : α) : List (Factor α) → Except Error (α × List (Factor α))
  | [] => .ok (x, [])
  | u :: us => do
    let (x, replaced) ← r.expand x u
    let (x, rest) ← r.expandAll x us
    return (x, replaced ++ rest)

/-- One pass: an offset scale that stands alone is read off, any other factors are replaced. -/
def pass (r : Registry α) (q : Quantity α) : Except Error (Quantity α) :=
  match q.offsetScale? with
  | some scale => do
    let metric ← r.parse scale.metric
    Quantity.tidy ⟨scale.toMetric q.amount, metric.units⟩
  | none => do
    let (x, units) ← r.expandAll q.amount q.units
    Quantity.tidy ⟨x, units⟩

def maxPasses : Nat := 64

/-- At most `n` passes over `q`, until every factor is canonical; the error names `start`. -/
def passes (r : Registry α) (start : Quantity α) : Nat → Quantity α → Except Error (Quantity α)
  | n, q =>
    if q.units.all Factor.isCanonical then .ok q
    else
      match n with
      | 0 => .error (.notReduced start.nice maxPasses)
      | n + 1 => do r.passes start n (← r.pass q)

/-! ### Kilograms -/

/-- The unit of mass in the table of base units. -/
def isGram (u : Factor α) : Bool :=
  u.base.symbol == "g" && !u.base.isReducible

/-- The first gram with the prefix of the kilogram. -/
def kilogramUnits : List (Factor α) → List (Factor α)
  | [] => []
  | u :: us => if isGram u then { u with pre := Prefix.named? "k" } :: us else u :: kilogramUnits us

/-- Counts in kilograms what is counted in grams. -/
def restoreKilogram (q : Quantity α) : Quantity α :=
  match q.units.find? isGram with
  | none => q
  | some gram =>
    ⟨q.amount / Scalar.pow (Scalar.ofFloat 1000) gram.exponent.val, kilogramUnits q.units⟩

/-! ### Reduction -/

/-- The quantity in irreducible units, tidy, without prefixes save that of the kilogram. -/
def reduce (r : Registry α) (q : Quantity α) : Except Error (Quantity α) := do
  let tidied ← q.tidy
  let reduced ← r.passes q maxPasses tidied
  return restoreKilogram reduced

end Metrology.Registry
