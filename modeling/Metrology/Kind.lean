import Metrology.Registry.Arithmetic

/-!
# Kinds of quantity

`Kind.classify` finds what a quantity measures: money by its currency, and anything else as the
first kind whose SI unit reduces to the same units. So `/s` is a frequency and never a
radioactivity.
-/

namespace Metrology

inductive Kind where
  | time
  | length
  | mass
  | current
  | temperature
  | amount
  | luminousIntensity
  | frequency
  | angle
  | force
  | pressure
  | energy
  | power
  | charge
  | voltage
  | capacitance
  | resistance
  | conductance
  | magneticFlux
  | magneticInduction
  | inductance
  | luminousFlux
  | illuminance
  | radioactivity
  | radiationDose
  | catalyticActivity
  | dataStorage
  | money
  deriving DecidableEq, Repr

namespace Kind

/-- All kinds, in the order in which they are tried. -/
def all : List Kind :=
  [time, length, mass, current, temperature, amount, luminousIntensity, frequency, angle, force,
    pressure, energy, power, charge, voltage, capacitance, resistance, conductance, magneticFlux,
    magneticInduction, inductance, luminousFlux, illuminance, radioactivity, radiationDose,
    catalyticActivity, dataStorage, money]

def name : Kind → String
  | time => "time"
  | length => "length"
  | mass => "mass"
  | current => "electric current"
  | temperature => "temperature"
  | amount => "amount of substance"
  | luminousIntensity => "luminous intensity"
  | frequency => "frequency"
  | angle => "angle"
  | force => "force"
  | pressure => "pressure"
  | energy => "energy"
  | power => "power"
  | charge => "electric charge"
  | voltage => "voltage"
  | capacitance => "capacitance"
  | resistance => "resistance"
  | conductance => "conductance"
  | magneticFlux => "magnetic flux"
  | magneticInduction => "magnetic induction"
  | inductance => "inductance"
  | luminousFlux => "luminous flux"
  | illuminance => "illuminance"
  | radioactivity => "radioactivity"
  | radiationDose => "radiation dose"
  | catalyticActivity => "catalytic activity"
  | dataStorage => "data storage"
  | money => "money"

/-- The name in answers to programs. -/
def key : Kind → String
  | current => "current"
  | amount => "amount"
  | luminousIntensity => "luminous_intensity"
  | charge => "charge"
  | magneticFlux => "magnetic_flux"
  | magneticInduction => "magnetic_induction"
  | luminousFlux => "luminous_flux"
  | radiationDose => "radiation_dose"
  | catalyticActivity => "catalytic_activity"
  | dataStorage => "data_storage"
  | k => k.name

/-- The SI unit. Money has none, but one for each currency. -/
def siUnit? : Kind → Option String
  | time => some "s"
  | length => some "m"
  | mass => some "kg"
  | current => some "A"
  | temperature => some "K"
  | amount => some "mol"
  | luminousIntensity => some "cd"
  | frequency => some "Hz"
  | angle => some "rad"
  | force => some "N"
  | pressure => some "Pa"
  | energy => some "J"
  | power => some "W"
  | charge => some "C"
  | voltage => some "V"
  | capacitance => some "F"
  | resistance => some "Ω"
  | conductance => some "S"
  | magneticFlux => some "Wb"
  | magneticInduction => some "T"
  | inductance => some "H"
  | luminousFlux => some "lm"
  | illuminance => some "lx"
  | radioactivity => some "Bq"
  | radiationDose => some "Gy"
  | catalyticActivity => some "kat"
  | dataStorage => some "B"
  | money => none

variable {α : Type} [Scalar α]

/-- Whether the only unit is a currency, to the first power. -/
def isMoney (q : Quantity α) : Bool :=
  match q.units with
  | [u] => u.exponent == 1 && u.base.isCurrency
  | _ => false

/-- Whether `q` can be measured in the SI unit of the kind. -/
def fits (r : Registry α) (q : Quantity α) (kind : Kind) : Except Error Bool :=
  match kind.siUnit? with
  | none => .ok false
  | some unit => do r.compatible q (← r.parse unit)

def firstFit (r : Registry α) (q : Quantity α) : List Kind → Except Error (Option Kind)
  | [] => .ok none
  | kind :: kinds => do
    if ← kind.fits r q then return some kind
    firstFit r q kinds

def classify (r : Registry α) (q : Quantity α) : Except Error (Option Kind) := do
  let reduced ← r.reduce q
  if isMoney reduced then return some money
  firstFit r reduced all

end Kind

end Metrology
