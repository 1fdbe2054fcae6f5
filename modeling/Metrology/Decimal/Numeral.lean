import Metrology.Decimal.Shortest
import Metrology.Exponent

/-!
# Numerals

A numeral is a mantissa with an optional power of ten. `Numeral.ofFloat` writes ordinary
magnitudes in full and the others with a power of ten, a tie between shortest digits going up;
`Numeral.plain` and `Numeral.nice` are the two ways to print one.
-/

namespace Metrology

open Text

namespace Decimal

def signText (d : Decimal) : List Char :=
  if d.negative then ['-'] else []

/-- The digits of a decimal with the point in its place. -/
def positional (d : Decimal) : List Char :=
  let places := (-d.exponent).toNat
  let ds := d.digits
  d.signText ++
    if 0 ≤ d.exponent then ds ++ List.replicate d.exponent.toNat '0'
    else if places < ds.length then
      ds.take (ds.length - places) ++ '.' :: ds.drop (ds.length - places)
    else '0' :: '.' :: List.replicate (places - ds.length) '0' ++ ds

/-- The digits of a decimal with the point after the first. -/
def mantissa (d : Decimal) : List Char :=
  d.signText ++
    match d.digits with
    | c :: c' :: cs => c :: '.' :: c' :: cs
    | cs => cs

end Decimal

/-- Mantissa and power of ten of a number as text. -/
structure Numeral where
  mantissa : List Char
  power : Option Int
  deriving DecidableEq, Repr

namespace Numeral

/-- The text of a double that has no digits. -/
def special (x : Float) : List Char :=
  if x.isNaN then "NaN".toList else if x < 0 then "-inf".toList else "inf".toList

/-- Leading powers of ten that are written in full. -/
def isOrdinary (magnitude : Int) : Bool :=
  -5 ≤ magnitude && magnitude ≤ 14

/-- The numeral of a decimal: in full at ordinary magnitudes. -/
def ofDecimal (d : Decimal) : Numeral :=
  if d.significand = 0 ∨ isOrdinary d.magnitude then ⟨d.positional, none⟩
  else ⟨d.mantissa, some d.magnitude⟩

/-- The numeral of a double, in its shortest digits. -/
def ofFloat (x : Float) : Numeral :=
  match Decimal.ofFloat? .up x with
  | some d => ofDecimal d
  | none => ⟨special x, none⟩

/-- The numeral of a double, with a power of ten at every finite magnitude. -/
def scientific (x : Float) : Numeral :=
  match Decimal.ofFloat? .up x with
  | some d => ⟨d.mantissa, some d.magnitude⟩
  | none => ⟨special x, none⟩

/-- `1.5e20`. -/
def plain (n : Numeral) : List Char :=
  match n.power with
  | some e => n.mantissa ++ 'e' :: Text.plain e
  | none => n.mantissa

/-- `1.5×10²⁰`. -/
def nice (n : Numeral) : List Char :=
  match n.power with
  | some e => n.mantissa ++ '×' :: '1' :: '0' :: superscript e
  | none => n.mantissa

/-- Parts `1.5e20` at its first `e`, when the rest reads as an exponent. -/
def split (cs : List Char) : Numeral :=
  let isMark := fun c => c == 'e' || c == 'E'
  match cs.dropWhile (!isMark ·) with
  | [] => ⟨cs, none⟩
  | _ :: power =>
    match Exponent.ofChars? power with
    | some e => ⟨cs.takeWhile (!isMark ·), some e.val⟩
    | none => ⟨cs, none⟩

end Numeral

end Metrology
