import Metrology.Registry.Basic
import Metrology.Scale

/-!
# The built-in units

The tables of the standard registry, in the order that ranks units in a quantity. The gram stands
in for the kilogram, so that prefixes attach to every base unit alike; reduction restores the
kilogram.
-/

namespace Metrology.Registry.Builtin

variable {α : Type} [Scalar α]

/-! ### Rows of the tables -/

def irreducible (symbol name : String) (prefixes : Option (List (Prefix α)) := none) :
    BaseUnit α :=
  { symbol, name, acceptedPrefixes := prefixes }

def linear (symbol name : String) (amount : Float) (metric : String)
    (prefixes : Option (List (Prefix α)) := none) : BaseUnit α :=
  { symbol, name, definition := .linear (Scalar.ofFloat amount) metric,
    acceptedPrefixes := prefixes }

def affine (symbol name metric : String) (toMetric fromMetric : α → α) : BaseUnit α :=
  { symbol, name, definition := .affine ⟨metric, toMetric, fromMetric⟩ }

def metric : Option (List (Prefix α)) := some Prefix.metric

def large : Option (List (Prefix α)) := some Prefix.largeMetric

/-- Data counts in powers of 1024 before it counts in powers of ten. -/
def ofData : Option (List (Prefix α)) := some (Prefix.binary ++ Prefix.largeMetric)

/-- Scales of money; a thousand has two spellings. -/
def ofMoney : Option (List (Prefix α)) := some (Prefix.among ["k", "K", "M", "B", "T"])

def pi : Float := 3.141592653589793

/-! ### The tables -/

/-- SI base units, with the gram for the kilogram. -/
def siBase : List (BaseUnit α) :=
  [irreducible "m" "meter" metric,
    irreducible "g" "gram" metric,
    irreducible "s" "second" metric,
    irreducible "A" "ampere" metric,
    irreducible "K" "kelvin" metric,
    irreducible "mol" "mole" metric,
    irreducible "cd" "candela" metric]

def siDerived : List (BaseUnit α) :=
  [linear "Hz" "hertz" 1 "/s" metric,
    irreducible "rad" "radian",
    irreducible "sr" "steradian",
    linear "N" "newton" 1 "kg*m/s2" metric,
    linear "Pa" "pascal" 1 "kg/m/s2" metric,
    linear "J" "joule" 1 "kg*m2/s2" metric,
    linear "W" "watt" 1 "kg*m2/s3" metric,
    linear "C" "coulomb" 1 "s*A" metric,
    linear "V" "volt" 1 "kg*m2/s3/A" metric,
    linear "F" "farad" 1 "s4*A2/kg/m2" metric,
    linear "Ω" "ohm" 1 "kg*m2/s3/A2" metric,
    linear "S" "siemens" 1 "s3*A2/kg/m2" metric,
    linear "Wb" "weber" 1 "kg*m2/s2/A" metric,
    linear "T" "tesla" 1 "kg/s2/A" metric,
    linear "H" "henry" 1 "kg*m2/s2/A2" metric,
    affine "°C" "Celsius" "K" Scale.celsiusToKelvin Scale.kelvinToCelsius,
    linear "lm" "lumen" 1 "cd" metric,
    linear "lx" "lux" 1 "cd/m2" metric,
    linear "Bq" "becquerel" 1 "/s" metric,
    linear "Gy" "gray" 1 "m2/s2" metric,
    linear "Sv" "sievert" 1 "m2/s2" metric,
    linear "kat" "katal" 1 "mol/s" metric]

/-- Units outside the SI that are used with it. -/
def siAccepted : List (BaseUnit α) :=
  [linear "min" "minute" 60 "s",
    linear "h" "hour" 3600 "s",
    linear "d" "day" 86400 "s",
    linear "AU" "astronomical unit" 149597870700 "m",
    linear "°" "degree" (pi / 180) "rad",
    linear "′" "arcminute" (pi / 10800) "rad",
    linear "″" "arcsecond" (pi / 648000) "rad",
    linear "ha" "hectare" 10000 "m2",
    linear "L" "liter" 0.001 "m3" metric,
    linear "t" "tonne" 1000 "kg" large,
    linear "Da" "dalton" 1.660539040e-27 "kg" large,
    linear "eV" "electron volt" 1.602176634e-19 "J" metric]

/-- Units that belong to none of the other tables. -/
def common : List (BaseUnit α) :=
  [linear "w" "week" 604800 "s",
    linear "mon" "month" 2629746 "s",
    linear "a" "year" 31556952 "s" (some (Prefix.among ["k", "M", "G"])),
    linear "ly" "light year" 9460730472580800 "m",
    linear "pc" "parsec" 3.0856775814913673e16 "m",
    linear "cal" "small calorie" 4.184 "J" (some (Prefix.among ["k"])),
    linear "bar" "bar" 100000 "Pa" metric,
    linear "atm" "atmosphere" 101325 "Pa"]

def imperial : List (BaseUnit α) :=
  [linear "in" "inch" 0.0254 "m",
    linear "ft" "foot" 0.3048 "m",
    linear "yd" "yard" 0.9144 "m",
    linear "mi" "mile" 1609.344 "m",
    linear "ac" "acre" 4046.8564224 "m2",
    linear "pt" "imperial pint" 568.26125 "mL",
    linear "qt" "imperial quart" 1.1365225 "L",
    linear "gal" "imperial gallon" 4.54609 "L",
    linear "oz" "ounce" 28.349523125 "g",
    linear "lb" "pound" 453.59237 "g",
    linear "st" "stone" 6.35029318 "kg",
    linear "ton" "long ton" 1016.0469088 "kg",
    linear "lbf" "pound force" 4.4482216152605 "N",
    linear "psi" "pound force per square inch" 6894.75729316836 "Pa"]

def usCustomary : List (BaseUnit α) :=
  [linear "USpt" "US liquid pint" 473.176473 "mL",
    linear "USqt" "US liquid quart" 946.352946 "mL",
    linear "USgal" "US liquid gallon" 3.785411784 "L",
    linear "tn" "short ton" 907.18474 "kg",
    affine "°F" "Fahrenheit" "K" Scale.fahrenheitToKelvin Scale.kelvinToFahrenheit]

def information : List (BaseUnit α) :=
  [linear "b" "bit" 0.125 "B" ofData,
    irreducible "B" "byte" ofData]

/-- Currencies. Their prefixes follow the amount, although the symbol precedes it. -/
def currencies : List (BaseUnit α) :=
  [irreducible "$" "dollar" ofMoney,
    irreducible "€" "euro" ofMoney,
    irreducible "£" "pound sterling" ofMoney,
    irreducible "¥" "yuan" ofMoney,
    irreducible "₹" "rupee" ofMoney,
    irreducible "₩" "won" ofMoney,
    irreducible "฿" "baht" ofMoney,
    irreducible "₽" "ruble" ofMoney]

def units : List (BaseUnit α) :=
  siBase ++ siDerived ++ siAccepted ++ common ++ imperial ++ usCustomary ++ information ++
    currencies

end Metrology.Registry.Builtin

namespace Metrology.Registry

variable {α : Type} [Scalar α]

def build : Except Error (Registry α) :=
  ofUnits Builtin.units

/-- Replaces whatever is registered by the built-in units. -/
def rebuild (_ : Registry α) : Except Error (Registry α) :=
  build

/-- The built-in units over doubles, which the program consults. -/
def standard : Registry Float :=
  build.toOption.getD empty

end Metrology.Registry
