import Metrology.Registry.Arithmetic

/-!
# Conversion

`Registry.convert` expresses a quantity in the units of a text such as `km/h` or `°F`. The target
may carry no amount other than one; an offset scale as the only unit is met with its inverse.
-/

namespace Metrology.Registry

variable {α : Type} [Scalar α]

/-- The units that a conversion aims at: the tidy units of an expression without an amount. -/
def parseTarget (r : Registry α) (text : String) : Except Error (Quantity α) := do
  let parsed ← r.parse text
  if Scalar.isNear Scalar.defaultTolerance parsed.amount Scalar.one then
    let tidied ← parsed.tidy
    return { tidied with amount := Scalar.one }
  else .error (.targetWithAmount (String.ofList (Text.trim text.toList)))

def convert (r : Registry α) (q : Quantity α) (target : String) :
    Except Error (Quantity α) := do
  let target ← r.parseTarget target
  let source ← r.reduce q
  let canonical ← r.reduce target
  requireSameUnits source canonical
  let amount :=
    match target.offsetScale? with
    | some scale => scale.fromMetric source.amount
    | none => source.amount / canonical.amount
  return { target with amount }

/-- The number of `target` units in `amount` of the units `source`. -/
def convertAmount (r : Registry α) (amount : α) (source target : String) : Except Error α := do
  let q ← r.parseWithAmount amount source
  return (← r.convert q target).amount

end Metrology.Registry
