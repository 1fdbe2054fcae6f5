import Metrology.Exponent
import Metrology.BaseUnit

/-!
# Unit expressions

An expression is what a text says before any symbol is looked up: an amount of money such as
`-$3.5M/h`, or a physical quantity such as `9.81 m/s2`.
-/

namespace Metrology

/-- How a unit joins those before it. -/
inductive Operator where
  | times
  | per
  deriving DecidableEq, Repr

/-- A unit as written: its operator, prefix and symbol in one spelling, and its exponent. -/
structure Token where
  operator : Operator
  spelling : List Char
  exponent : Option Exponent
  deriving DecidableEq

inductive Expression where
  | money (negative : Bool) (symbol : Char) (amount : List Char) (letter : Option Char)
    (tokens : List Token)
  | physical (amount : Option (List Char)) (tokens : List Token)
  deriving DecidableEq

/-! ### Characters -/

/-- The characters of unit symbols. -/
def isSymbolChar (c : Char) : Bool :=
  c.isAlpha || ['Ω', '°', '″', '′', 'µ', '"', '\x27'].contains c

/-- The letters that scale an amount of money, in either case. -/
def isMoneyLetter (c : Char) : Bool :=
  ['K', 'M', 'B', 'T'].contains c.toUpper

def operator? (c : Char) : Option Operator :=
  match c with
  | '*' | '⋅' | '·' => some .times
  | '/' => some .per
  | _ => none

/-- The longest prefix and symbol that a token may have. -/
def maxSpelling : Nat := 6

end Metrology
