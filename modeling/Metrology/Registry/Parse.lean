import Metrology.Decimal.Reader
import Metrology.Expression.Scanner
import Metrology.Quantity.Basic
import Metrology.Registry.Basic
import Metrology.Text.Blank

/-!
# Reading quantities and units

`Registry.parse` reads a text as a quantity whose factors stand as written, and
`Registry.parseUnit` reads a single unit token. Both look symbols up in the registry after the
whole text has been scanned.
-/

namespace Metrology.Registry

variable {α : Type} [Scalar α]

/-! ### Quantities -/

def readAmount (cs : List Char) : Except Error α :=
  match Decimal.readFloat? cs with
  | some x => .ok (Scalar.ofFloat x)
  | none => .error (.invalidAmount (String.ofList cs))

/-- The factor that a token names; a divisor has its exponent negated. -/
def resolveToken (r : Registry α) (t : Token) : Except Error (Factor α) := do
  let u ← r.resolve (String.ofList t.spelling) (t.exponent.getD 1)
  match t.operator with
  | .times => .ok u
  | .per => u.invert

/-- The currency of an amount of money, scaled by the letter after it. -/
def resolveCurrency (r : Registry α) (symbol : Char) (letter : Option Char) :
    Except Error (Factor α) :=
  match r.resolve (String.singleton symbol) 1 with
  | .error _ => .error (.unknownCurrency symbol)
  | .ok u =>
    match letter with
    | none => .ok u
    | some c =>
      match u.base.findPrefix? (String.singleton c) with
      | some p => .ok { u with pre := some p }
      | none => .error (.invalidCurrencyPrefix c)

def evaluate (r : Registry α) : Expression → Except Error (Quantity α)
  | .money negative symbol amount letter tokens => do
    let x ← readAmount amount
    let currency ← r.resolveCurrency symbol letter
    let units ← tokens.mapM r.resolveToken
    return ⟨if negative then -x else x, currency :: units⟩
  | .physical amount tokens => do
    let x ← amount.elim (.ok Scalar.one) readAmount
    let units ← tokens.mapM r.resolveToken
    return ⟨x, units⟩

/-- The quantity that a text spells, between any blanks. -/
def parse (r : Registry α) (text : String) : Except Error (Quantity α) :=
  let cs := Text.trim text.toList
  match Expression.scan? cs with
  | some e => r.evaluate e
  | none => .error (.malformedQuantity (String.ofList cs))

def parseWithAmount (r : Registry α) (amount : α) (units : String) :
    Except Error (Quantity α) := do
  let q ← r.parse units
  return { q with amount := q.amount * amount }

/-! ### Single units -/

/-- The spelling at the front of a unit token: one currency symbol, or up to six symbol
characters. -/
def tokenSpelling? : List Char → Option (List Char × List Char)
  | [] => none
  | c :: cs =>
    if isCurrencySymbol c then some ([c], cs)
    else
      let spelling := (c :: cs).takeWhile isSymbolChar
      if spelling = [] ∨ maxSpelling < spelling.length then none
      else some (spelling, (c :: cs).dropWhile isSymbolChar)

/-- The exponent that makes up the rest of a unit token, one when there is no rest. -/
def tokenExponent? : List Char → Option Exponent
  | [] => some 1
  | '-' :: cs => if cs.all Char.isDigit then Exponent.ofChars? ('-' :: cs) else none
  | cs => if cs.all Char.isDigit then Exponent.ofChars? cs else none

def splitToken? (cs : List Char) : Option (List Char × Exponent) := do
  let (spelling, rest) ← tokenSpelling? cs
  let e ← tokenExponent? rest
  return (spelling, e)

/-- The unit that a token such as `km2`, `s-1` or `$` names. -/
def parseUnit (r : Registry α) (token : String) : Except Error (Factor α) :=
  match splitToken? token.toList with
  | some (spelling, e) => r.resolve (String.ofList spelling) e
  | none => .error (.malformedUnit token)

end Metrology.Registry
