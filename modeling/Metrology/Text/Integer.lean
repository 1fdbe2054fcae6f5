/-!
# Integers as text

`readInt?` accepts an optional sign and one or more ASCII digits, and nothing else. `superscript`
writes an integer in raised digits.
-/

namespace Metrology.Text

/-- The text without a leading sign, and whether that sign was a minus. -/
def splitSign : List Char → Bool × List Char
  | '-' :: cs => (true, cs)
  | '+' :: cs => (false, cs)
  | cs => (false, cs)

def readNat? (cs : List Char) : Option Nat :=
  if cs ≠ [] ∧ cs.all Char.isDigit then some (Nat.ofDigitChars 10 cs 0) else none

def readInt? (cs : List Char) : Option Int :=
  let (negative, digits) := splitSign cs
  (readNat? digits).map fun n => if negative then -(n : Int) else n

def superscriptDigit (c : Char) : Char :=
  match c with
  | '0' => '⁰'
  | '1' => '¹'
  | '2' => '²'
  | '3' => '³'
  | '4' => '⁴'
  | '5' => '⁵'
  | '6' => '⁶'
  | '7' => '⁷'
  | '8' => '⁸'
  | '9' => '⁹'
  | '-' => '⁻'
  | c => c

def plain (n : Int) : List Char :=
  if n < 0 then '-' :: Nat.toDigits 10 n.natAbs else Nat.toDigits 10 n.natAbs

/-- `plain` in raised digits, e.g. `⁻¹²`. -/
def superscript (n : Int) : List Char :=
  (plain n).map superscriptDigit

end Metrology.Text
