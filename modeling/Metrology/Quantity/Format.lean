import Metrology.Quantity.Basic
import Metrology.Text.Blank
import Metrology.Text.Lowercase

/-!
# Quantities as text

`Quantity.format` writes the amount, the units or both, in one of two styles: `nice` raises
exponents and joins units by a dot, `ascii` keeps to plain characters.
-/

namespace Metrology

inductive Style where
  | nice
  | ascii
  deriving DecidableEq, Repr

namespace Style

def name : Style → String
  | nice => "nice"
  | ascii => "ascii"

def named? (name : String) : Option Style :=
  [nice, ascii].find? (·.name = name)

/-- The style with this name in any case, between any blanks. -/
def read (text : String) : Except Error Style :=
  let name := String.ofList (Text.lowercase (Text.trim text.toList))
  (named? name).elim (.error (.unknownStyle name)) .ok

def exponent : Style → Int → List Char
  | nice => Text.superscript
  | ascii => Text.plain

def amount {α : Type} [Scalar α] (style : Style) (x : α) : List Char :=
  match style with
  | nice => (Scalar.numeral x).nice
  | ascii => (Scalar.numeral x).plain

def separator : Style → Char
  | nice => '⋅'
  | ascii => '*'

end Style

/-- What a text shows of a quantity. -/
inductive Parts where
  | both
  | amount
  | units
  | neither
  deriving DecidableEq, Repr

namespace Parts

def hasAmount : Parts → Bool
  | both | amount => true
  | units | neither => false

def hasUnits : Parts → Bool
  | both | units => true
  | amount | neither => false

end Parts

variable {α : Type} [Scalar α]

namespace Factor

/-- Prefix, symbol and the exponent `n`, which is left out when it is one. -/
def renderPower (u : Factor α) (style : Style) (n : Int) : List Char :=
  u.spelling.toList ++ if n = 1 then [] else style.exponent n

def render (u : Factor α) (style : Style) : List Char :=
  u.renderPower style u.exponent.val

/-- The factor as a divisor, so `s²` for `s⁻²`. -/
def renderReciprocal (u : Factor α) (style : Style) : List Char :=
  u.renderPower style (-u.exponent.val)

end Factor

namespace Quantity

/-- A text under construction: the amount with its currency, the units that follow it, and
whether a unit other than a divisor stands among these. -/
structure Layout where
  amount : List Char
  units : List Char
  hasProduct : Bool

namespace Layout

/-- The symbol of a currency before the amount, after its sign. -/
def wrap (symbol : List Char) : List Char → List Char
  | '-' :: cs => '-' :: symbol ++ cs
  | cs => symbol ++ cs

def joint (l : Layout) (style : Style) (u : Factor α) : List Char :=
  if l.hasProduct then [style.separator]
  else if l.amount ≠ [] ∧ !u.base.attachesToNumeral then [' ']
  else []

def add (style : Style) (l : Layout) (u : Factor α) : Layout :=
  if u.exponent.val < 0 then
    { l with units := l.units ++ '/' :: u.renderReciprocal style }
  else if u.exponent = 1 ∧ u.base.isCurrency then
    { l with amount := wrap u.base.symbol.toList l.amount ++ (u.prefixSymbol?.getD "").toList }
  else
    { l with units := l.units ++ l.joint style u ++ u.render style, hasProduct := true }

end Layout

/-- The amount where it is shown, then the units where they are. A currency with exponent one
wraps the amount, the angle marks follow it without a space, and negative exponents are written
as divisions. -/
def text (q : Quantity α) (parts : Parts) (style : Style) : String :=
  let amount := if parts.hasAmount then style.amount q.amount else []
  if parts.hasUnits then
    let l := q.units.foldl (Layout.add style) ⟨amount, [], false⟩
    String.ofList (l.amount ++ l.units)
  else String.ofList amount

/-- The text of the parts, of which there must be some. -/
def format (q : Quantity α) (parts : Parts) (style : Style) : Except Error String :=
  if parts = .neither then .error .emptyRendering else .ok (q.text parts style)

def nice (q : Quantity α) : String :=
  q.text .both .nice

def ascii (q : Quantity α) : String :=
  q.text .both .ascii

/-- The units for a message, `1` where there are none. -/
def unitLabel (q : Quantity α) : String :=
  let label := q.text .units .nice
  if label = "" then "1" else label

end Quantity

end Metrology
