import Metrology.Registry.Arithmetic

/-!
# Physical constants

The constants of the CODATA 2018 adjustment as quantities, and astronomical lengths in metres.
-/

namespace Metrology

inductive Constant where
  | elementaryCharge
  | gravitation
  | planck
  | dirac
  | speedOfLight
  | electricPermittivity
  | magneticPermeability
  | electronMass
  | fineStructure
  | josephson
  | rydberg
  | vonKlitzing
  | avogadro
  deriving DecidableEq, Repr

namespace Constant

def all : List Constant :=
  [elementaryCharge, gravitation, planck, dirac, speedOfLight, electricPermittivity,
    magneticPermeability, electronMass, fineStructure, josephson, rydberg, vonKlitzing, avogadro]

def name : Constant → String
  | elementaryCharge => "elementary_charge"
  | gravitation => "gravitation"
  | planck => "planck"
  | dirac => "dirac"
  | speedOfLight => "speed_of_light"
  | electricPermittivity => "electric_permittivity"
  | magneticPermeability => "magnetic_permeability"
  | electronMass => "electron_mass"
  | fineStructure => "fine_structure"
  | josephson => "josephson"
  | rydberg => "rydberg"
  | vonKlitzing => "von_klitzing"
  | avogadro => "avogadro"

def named? (name : String) : Option Constant :=
  all.find? (·.name = name)

variable {α : Type} [Scalar α]

open Scalar (ofFloat)

/-- The circumference of the unit circle. -/
def tau : Float := 6.283185307179586

/-- The Planck constant. -/
def quantumOfAction (r : Registry α) : Except Error (Quantity α) :=
  r.parseWithAmount (ofFloat 6.62607015e-34) "J*s"

/-- The constant with its units as they are usually given. The reduced Planck constant is computed
from the other, so it comes reduced. -/
def quantity (r : Registry α) : Constant → Except Error (Quantity α)
  | elementaryCharge => r.parseWithAmount (ofFloat 1.602176634e-19) "C"
  | gravitation => r.parseWithAmount (ofFloat 6.67430e-11) "m3/kg/s2"
  | planck => quantumOfAction r
  | dirac => do r.divide (← quantumOfAction r) (.number (ofFloat tau))
  | speedOfLight => r.parseWithAmount (ofFloat 299792458) "m/s"
  | electricPermittivity => r.parseWithAmount (ofFloat 8.8541878128e-12) "F/m"
  | magneticPermeability => r.parseWithAmount (ofFloat 1.25663706212e-6) "N/A2"
  | electronMass => r.parseWithAmount (ofFloat 9.1093837015e-31) "kg"
  | fineStructure => .ok (.number (ofFloat 7.2973525693e-3))
  | josephson => r.parseWithAmount (ofFloat 483597.84841698e9) "Hz/V"
  | rydberg => r.parseWithAmount (ofFloat 10973731.568160) "m-1"
  | vonKlitzing => r.parseWithAmount (ofFloat 25812.80745) "Ω"
  | avogadro => r.parseWithAmount (ofFloat 6.02214076e23) "mol-1"

/-! ### Astronomical lengths in metres -/

def metresPerAU : Float := 1.495978707e11

/-- The Julian light year, rounded. -/
def metresPerLightYear : Float := 9.4607e15

/-- The parsec, rounded. -/
def metresPerParsec : Float := 3.0857e16

end Constant

end Metrology
