import Metrology.Factor

/-!
# Quantities

A quantity is an amount and a list of factors. `Quantity.tidy` brings the list into its canonical
shape: one factor for each base, no exponent zero, positive exponents first and then the order of
the registry.
-/

namespace Metrology

structure Quantity (α : Type) where
  amount : α
  units : List (Factor α)

namespace Quantity

variable {α : Type} [Scalar α]

def number (amount : α) : Quantity α :=
  ⟨amount, []⟩

def isDimensionless (q : Quantity α) : Bool :=
  q.units.isEmpty

/-- The scale with an offset that is the only unit. -/
def offsetScale? (q : Quantity α) : Option (OffsetScale α) :=
  match q.units with
  | [u] => u.offsetScale?
  | _ => none

def sameUnits (q r : Quantity α) : Bool :=
  q.units == r.units

/-- Amounts that are nearly equal, of the same units. Nothing is reduced. -/
instance : BEq (Quantity α) where
  beq q r := Scalar.isNear Scalar.defaultTolerance q.amount r.amount && q.sameUnits r

/-! ### The canonical shape -/

/-- Adds the exponent of `u` to the factor with its base, or `u` itself at the end. Factors whose
prefixes differ lose them to the scale. -/
def absorb (u : Factor α) (scale : α) : List (Factor α) → Except Error (List (Factor α) × α)
  | [] => .ok ([u], scale)
  | v :: vs =>
    if v.sameBase u then
      match v.exponent.add? u.exponent with
      | none => .error (.exponentOutOfRange u.spelling)
      | some e =>
        if v.samePrefix u then .ok ({ v with exponent := e } :: vs, scale)
        else .ok ({ v with pre := none, exponent := e } :: vs,
          scale * (v.prefixScale * u.prefixScale))
    else do
      let (merged, scale) ← absorb u scale vs
      return (v :: merged, scale)

/-- One factor for each base, and the scale of the prefixes that were lost. -/
def merge (units : List (Factor α)) : Except Error (List (Factor α) × α) :=
  units.foldlM (fun (merged, scale) u => absorb u scale merged) ([], Scalar.one)

/-- One factor for each base, no exponent zero, in canonical order. -/
def tidy (q : Quantity α) : Except Error (Quantity α) := do
  let (merged, scale) ← merge q.units
  return ⟨q.amount * scale, Factor.sort (merged.filter (·.exponent != 0))⟩

/-! ### Operations that do not reduce -/

def inverse (q : Quantity α) : Except Error (Quantity α) := do
  let units ← q.units.mapM Factor.invert
  tidy ⟨Scalar.one / q.amount, units⟩

def negate (q : Quantity α) : Quantity α :=
  { q with amount := -q.amount }

/-- The power `n`; the first power is the quantity as it stands. -/
def pow (q : Quantity α) (n : Exponent) : Except Error (Quantity α) :=
  if n = 0 then .ok (number Scalar.one)
  else if n = 1 then .ok q
  else do
    let units ← q.units.mapM (·.raise n)
    tidy ⟨Scalar.pow q.amount n.val, units⟩

end Quantity

end Metrology
