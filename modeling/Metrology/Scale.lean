import Metrology.Scalar

/-!
# Scales

Conversions between scales of temperature, speed and density. The functions of a pair such as
`celsiusToKelvin` and `kelvinToCelsius` undo each other in exact arithmetic.
-/

namespace Metrology.Scale

variable {α : Type} [Scalar α]

open Scalar (ofFloat)

/-! ### Temperature -/

def celsiusOffset : Float := 273.15

def fahrenheitOffset : Float := 32

def fahrenheitStep : Float := 5 / 9

def celsiusToKelvin (c : α) : α :=
  c + ofFloat celsiusOffset

def kelvinToCelsius (k : α) : α :=
  k - ofFloat celsiusOffset

def celsiusToFahrenheit (c : α) : α :=
  c / ofFloat fahrenheitStep + ofFloat fahrenheitOffset

def fahrenheitToCelsius (f : α) : α :=
  (f - ofFloat fahrenheitOffset) * ofFloat fahrenheitStep

def fahrenheitToKelvin (f : α) : α :=
  celsiusToKelvin (fahrenheitToCelsius f)

def kelvinToFahrenheit (k : α) : α :=
  celsiusToFahrenheit (kelvinToCelsius k)

/-! ### Speed -/

def metresPerKilometre : Float := 1000

def secondsPerHour : Float := 3600

def kmPerHourToMetresPerSecond (v : α) : α :=
  v * ofFloat metresPerKilometre / ofFloat secondsPerHour

def metresPerSecondToKmPerHour (v : α) : α :=
  v * ofFloat secondsPerHour / ofFloat metresPerKilometre

/-! ### Density -/

def gramsPerCm3ToKgPerM3 (d : α) : α :=
  d * ofFloat 1000

end Metrology.Scale
