import Metrology.Decimal.Basic
import Metrology.Text.Integer

/-!
# Reading a double

`readFloat?` accepts an optional sign, digits with an optional point among them and an optional
power of ten, as well as `inf`, `infinity` and `nan` in any case. The result is correctly rounded.
-/

namespace Metrology.Decimal

open Text

def readPower? : List Char → Option Int
  | [] => some 0
  | 'e' :: cs => readInt? cs
  | 'E' :: cs => readInt? cs
  | _ => none

/-- Digits, an optional point with more digits, an optional power of ten. -/
def readMagnitude? (negative : Bool) (cs : List Char) : Option Decimal :=
  let whole := cs.takeWhile Char.isDigit
  let (fraction, rest) :=
    match cs.dropWhile Char.isDigit with
    | '.' :: more => (more.takeWhile Char.isDigit, more.dropWhile Char.isDigit)
    | more => ([], more)
  if whole ++ fraction = [] then none
  else (readPower? rest).map fun power =>
    ofParts negative (Nat.ofDigitChars 10 (whole ++ fraction) 0) (power - fraction.length)

/-- A numeral without special values. -/
def ofChars? (cs : List Char) : Option Decimal :=
  let (negative, rest) := splitSign cs
  readMagnitude? negative rest

/-- The named value, for the texts that name infinity or no number at all. -/
def namedFloat? (cs : List Char) : Option Float :=
  let (negative, name) := splitSign cs
  let infinity : Float := 1 / 0
  let name := name.map Char.toLower
  if name = "inf".toList ∨ name = "infinity".toList then
    some (if negative then -infinity else infinity)
  else if name = "nan".toList then some (0 / 0)
  else none

def readFloat? (cs : List Char) : Option Float :=
  match ofChars? cs with
  | some d => some d.toFloat
  | none => namedFloat? cs

end Metrology.Decimal
