import Metrology.Decimal.Numeral

/-!
# JSON values

Numbers are integers or doubles; the fields of an object are sorted by key. `Json.write` is the
text of a value on one line: every control character in a string is escaped.
-/

namespace Metrology

inductive Json where
  | null
  | bool (b : Bool)
  | integer (n : Int)
  | number (x : Float)
  | string (s : String)
  | array (elements : List Json)
  | object (fields : List (String × Json))

namespace Json

/-- A double as JSON has it: infinities and NaN are null. -/
def ofFloat (x : Float) : Json :=
  if x.isFinite then number x else null

/-! ### Writing -/

def hexDigit (n : Nat) : Char :=
  Nat.digitChar (n % 16)

def escapeChar (c : Char) : List Char :=
  match c with
  | '"' => ['\\', '"']
  | '\\' => ['\\', '\\']
  | '\x08' => ['\\', 'b']
  | '\x0c' => ['\\', 'f']
  | '\n' => ['\\', 'n']
  | '\r' => ['\\', 'r']
  | '\t' => ['\\', 't']
  | c =>
    if c < ' ' then ['\\', 'u', '0', '0', hexDigit (c.toNat / 16), hexDigit c.toNat] else [c]

def writeString (s : String) : List Char :=
  '"' :: s.toList.flatMap escapeChar ++ ['"']

/-- A decimal as JSON has it: with a point where it is written in full. -/
def writeDecimal (d : Decimal) : List Char :=
  if 0 ≤ d.exponent ∧ d.magnitude < 16 then d.positional ++ ['.', '0']
  else if -6 < d.magnitude ∧ d.magnitude < 16 then d.positional
  else d.mantissa ++ 'e' :: Text.plain d.magnitude

/-- A double in its shortest digits, a tie between them going to the even one. -/
def writeFloat (x : Float) : List Char :=
  match Decimal.ofFloat? .even x with
  | some d => writeDecimal d
  | none => "null".toList

def commaSeparated : List (List Char) → List Char
  | [] => []
  | [cs] => cs
  | cs :: rest => cs ++ ',' :: commaSeparated rest

mutual

def write : Json → List Char
  | null => "null".toList
  | bool b => (if b then "true" else "false").toList
  | integer n => Text.plain n
  | number x => writeFloat x
  | string s => writeString s
  | array elements => '[' :: commaSeparated (writeElements elements) ++ [']']
  | object fields => '\x7b' :: commaSeparated (writeFields fields) ++ ['\x7d']

def writeElements : List Json → List (List Char)
  | [] => []
  | v :: rest => write v :: writeElements rest

def writeFields : List (String × Json) → List (List Char)
  | [] => []
  | (key, v) :: rest => (writeString key ++ ':' :: write v) :: writeFields rest

end

end Json

end Metrology
