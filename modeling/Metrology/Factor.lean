import Metrology.BaseUnit
import Metrology.Exponent

/-!
# Factors

A factor is a base unit with an optional prefix, raised to an integer exponent, such as `km²`.
`Factor.sort` puts factors in canonical order: the positive exponents first, each group in the
order of the registry.
-/

namespace Metrology

structure Factor (α : Type) where
  base : BaseUnit α
  pre : Option (Prefix α)
  exponent : Exponent

namespace Factor

variable {α : Type} [Scalar α]

/-- Two factors share a base when they have its symbol in common. -/
def sameBase (u v : Factor α) : Bool :=
  u.base.symbol == v.base.symbol

def prefixSymbol? (u : Factor α) : Option String :=
  u.pre.map (·.symbol)

def samePrefix (u v : Factor α) : Bool :=
  u.prefixSymbol? == v.prefixSymbol?

instance : BEq (Factor α) where
  beq u v := u.sameBase v && u.samePrefix v && u.exponent == v.exponent

def multiplier (u : Factor α) : α :=
  u.pre.elim Scalar.one (·.multiplier)

/-- What the prefix contributes to the amount. -/
def prefixScale (u : Factor α) : α :=
  Scalar.pow u.multiplier u.exponent.val

/-- Prefix and symbol, without the exponent. -/
def spelling (u : Factor α) : String :=
  u.prefixSymbol?.getD "" ++ u.base.symbol

def isCanonical (u : Factor α) : Bool :=
  !u.base.isReducible && u.pre.isNone

/-- The scale with an offset on which a lone factor is read: the first power of an affine unit,
without a prefix. -/
def offsetScale? (u : Factor α) : Option (OffsetScale α) :=
  if u.pre.isNone && u.exponent == 1 then u.base.definition.offsetScale? else none

/-! ### Exponents -/

/-- `u` with a new exponent, refused where that is out of range. -/
def withExponent? (u : Factor α) (e : Option Exponent) : Except Error (Factor α) :=
  match e with
  | some e => .ok { u with exponent := e }
  | none => .error (.exponentOutOfRange u.spelling)

def raise (u : Factor α) (n : Exponent) : Except Error (Factor α) :=
  u.withExponent? (u.exponent.mul? n)

def invert (u : Factor α) : Except Error (Factor α) :=
  u.withExponent? u.exponent.neg?

/-! ### Canonical order -/

/-- Whether `u` may stand before `v`. -/
def precedes (u v : Factor α) : Bool :=
  match decide (u.exponent.val < 0), decide (v.exponent.val < 0) with
  | false, true => true
  | true, false => false
  | _, _ => u.base.order ≤ v.base.order

/-- Puts `u` before the first factor that may follow it. -/
def insert (u : Factor α) : List (Factor α) → List (Factor α)
  | [] => [u]
  | v :: vs => if u.precedes v then u :: v :: vs else v :: insert u vs

/-- Canonical order; factors of equal rank keep theirs. -/
def sort (us : List (Factor α)) : List (Factor α) :=
  us.foldr insert []

end Factor

end Metrology
