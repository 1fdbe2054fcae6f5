import Metrology.Prefix

/-!
# Base units

A base unit is a symbol that a unit expression can name: an irreducible unit, a multiple of other
units, or a scale with an offset. `Definition.slope` is the factor by which it scales.
-/

namespace Metrology

/-- A scale with an offset: its reading `x` is `toMetric x` of the expression `metric`. -/
structure OffsetScale (α : Type) where
  metric : String
  toMetric : α → α
  fromMetric : α → α

/-- What a base unit means in other units. -/
inductive Definition (α : Type) where
  | irreducible
  /-- One unit is `amount` of the expression `metric`. -/
  | linear (amount : α) (metric : String)
  | affine (scale : OffsetScale α)

structure BaseUnit (α : Type) where
  symbol : String
  name : String
  definition : Definition α := .irreducible
  /-- The prefixes the unit accepts, in the order in which they are tried. -/
  acceptedPrefixes : Option (List (Prefix α)) := none
  /-- The place in its registry, counted from one. -/
  order : Nat := 0

variable {α : Type} [Scalar α]

namespace Definition

def isReducible : Definition α → Bool
  | irreducible => false
  | _ => true

def metric? : Definition α → Option String
  | irreducible => none
  | linear _ metric => some metric
  | affine scale => some scale.metric

/-- The factor between differences on both sides. -/
def slope : Definition α → α
  | irreducible => Scalar.one
  | linear amount _ => amount
  | affine scale => scale.toMetric Scalar.one - scale.toMetric (Scalar.ofFloat 0)

def offsetScale? : Definition α → Option (OffsetScale α)
  | affine scale => some scale
  | _ => none

end Definition

/-- The symbols of money, which stand before the amount. -/
def currencySymbols : List Char :=
  ['$', '€', '£', '¥', '₹', '₩', '฿', '₽']

def isCurrencySymbol (c : Char) : Bool :=
  currencySymbols.contains c

namespace BaseUnit

def isReducible (u : BaseUnit α) : Bool :=
  u.definition.isReducible

def prefixes (u : BaseUnit α) : List (Prefix α) :=
  u.acceptedPrefixes.getD []

def findPrefix? (u : BaseUnit α) (symbol : String) : Option (Prefix α) :=
  u.prefixes.find? (·.symbol = symbol)

def isCurrency (u : BaseUnit α) : Bool :=
  match u.symbol.toList with
  | [c] => isCurrencySymbol c
  | _ => false

/-- The marks of angles follow an amount without a space. -/
def attachesToNumeral (u : BaseUnit α) : Bool :=
  u.symbol == "°" || u.symbol == "′" || u.symbol == "″"

def spellings (u : BaseUnit α) : List String :=
  u.symbol :: u.prefixes.map (·.symbol ++ u.symbol)

end BaseUnit

end Metrology
