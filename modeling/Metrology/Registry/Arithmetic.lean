import Metrology.Registry.Reduction

/-!
# Arithmetic

Operands are reduced before they are combined, so `1 kg + 500 g` is a sum and `1 m + 1 s` an
error.
-/

namespace Metrology.Registry

variable {α : Type} [Scalar α]

def requireSameUnits (q r : Quantity α) : Except Error PUnit :=
  if q.sameUnits r then .ok ⟨⟩ else .error (.incompatibleUnits q.unitLabel r.unitLabel)

def multiply (r : Registry α) (a b : Quantity α) : Except Error (Quantity α) := do
  let a ← r.reduce a
  let b ← r.reduce b
  Quantity.tidy ⟨a.amount * b.amount, a.units ++ b.units⟩

def divide (r : Registry α) (a b : Quantity α) : Except Error (Quantity α) := do
  r.multiply a (← b.inverse)

def add (r : Registry α) (a b : Quantity α) : Except Error (Quantity α) := do
  let a ← r.reduce a
  let b ← r.reduce b
  requireSameUnits a b
  return { a with amount := a.amount + b.amount }

def subtract (r : Registry α) (a b : Quantity α) : Except Error (Quantity α) :=
  r.add a b.negate

def compatible (r : Registry α) (a b : Quantity α) : Except Error Bool := do
  let a ← r.reduce a
  let b ← r.reduce b
  return a.sameUnits b

end Metrology.Registry
