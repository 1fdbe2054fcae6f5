import Metrology.Json.Basic
import Metrology.Json.Written

/-!
# Decoding JSON

`Written.decode?` turns a value as spelled into a `Json`. It refuses surrogates without a partner,
numbers beyond the range of a double and nesting beyond a given number of levels. The last of
repeated keys wins.
-/

namespace Metrology.Json

/-! ### Strings -/

def isLead (n : Nat) : Bool :=
  0xD800 ≤ n && n < 0xDC00

def isTrail (n : Nat) : Bool :=
  0xDC00 ≤ n && n < 0xE000

/-- The characters of a string, after those in `done`, which is held in reverse. -/
def decodePieces? (done : List Char) : List Piece → Option (List Char)
  | [] => some done.reverse
  | .char c :: rest => decodePieces? (c :: done) rest
  | .unit n :: rest =>
    if isTrail n then none
    else if isLead n then
      match rest with
      | .unit m :: rest =>
        if isTrail m then
          decodePieces? (Char.ofNat (0x10000 + (n - 0xD800) * 0x400 + (m - 0xDC00)) :: done) rest
        else none
      | _ => none
    else decodePieces? (Char.ofNat n :: done) rest

def decodeString? (pieces : List Piece) : Option String :=
  (decodePieces? [] pieces).map String.ofList

/-! ### Numbers -/

/-- The least number beyond 64 bits. -/
def wordLimit : Nat := 18446744073709551616

/-- The magnitude of the least integer of 64 bits. -/
def integerLimit : Nat := 9223372036854775808

/-- Appends digits to `n` while the result fits 64 bits; also the digits that are left. -/
def takeDigits (n : Nat) : List Char → Nat × List Char
  | [] => (n, [])
  | c :: cs =>
    let m := 10 * n + (c.toNat - '0'.toNat)
    if m < wordLimit then takeDigits m cs else (n, c :: cs)

/-- `x · 10 ^ e` in steps of at most 308 powers of ten; refused when it is too large. -/
def scaleByTen? (x : Float) (e : Int) : Option Float :=
  if 0 ≤ e then
    if e ≤ 308 then
      let y := x * Float.ofScientific 1 false e.toNat
      if y.isInf then none else some y
    else if x == 0 then some x
    else none
  else if -308 ≤ e then some (x / Float.ofScientific 1 false (-e).toNat)
  else if x == 0 then some x
  else scaleByTen? (x / 1e308) (e + 308)
termination_by e.natAbs
decreasing_by omega

/-- The whole part as an integer, when it is the entire number. -/
def decodeInteger (negative : Bool) (n : Nat) : Json :=
  if !negative then integer n
  else if 0 < n ∧ n ≤ integerLimit then integer (-n)
  else number (-Float.ofNat n)

def NumberText.powerValue (t : NumberText) : Int :=
  match t.power with
  | none => 0
  | some (negative, digits) =>
    let n : Int := Nat.ofDigitChars 10 digits 0
    if negative then -n else n

/-- An integer of 64 bits stays one. Of any other number as many digits count as fit 64 bits: the
further ones of the whole part are powers of ten, those of the fraction are dropped. -/
def decodeNumber? (t : NumberText) : Option Json :=
  let (whole, left) := takeDigits 0 t.whole
  if left = [] ∧ t.fraction = none ∧ t.power = none then some (decodeInteger t.negative whole)
  else
    let fraction := t.fraction.getD []
    let (digits, dropped) := takeDigits whole fraction
    let e := (left.length : Int) - (fraction.length - dropped.length) + t.powerValue
    (scaleByTen? (Float.ofNat digits) e).map fun x => number (if t.negative then -x else x)

/-! ### Values -/

/-- Puts a field in its place by key, over an earlier one. -/
def insertField (key : String) (v : Json) : List (String × Json) → List (String × Json)
  | [] => [(key, v)]
  | (key', v') :: rest =>
    if key = key' then (key, v) :: rest
    else if key < key' then (key, v) :: (key', v') :: rest
    else (key', v') :: insertField key v rest

mutual

/-- The value as spelled, when it nests at most `levels` deep. -/
def Written.decode? (levels : Nat) : Written → Option Json
  | .null => some .null
  | .bool b => some (.bool b)
  | .number t => decodeNumber? t
  | .string pieces => (decodeString? pieces).map .string
  | .array elements =>
    match levels with
    | 0 => none
    | n + 1 => (Written.decodeElements? n elements).map .array
  | .object fields =>
    match levels with
    | 0 => none
    | n + 1 => (Written.decodeFields? n [] fields).map .object

def Written.decodeElements? (levels : Nat) : List Written → Option (List Json)
  | [] => some []
  | v :: rest => do
    let v ← v.decode? levels
    return v :: (← Written.decodeElements? levels rest)

/-- The fields, put into those of `done`. -/
def Written.decodeFields? (levels : Nat) (done : List (String × Json)) :
    List (List Piece × Written) → Option (List (String × Json))
  | [] => some done
  | (key, v) :: rest => do
    let key ← decodeString? key
    let v ← v.decode? levels
    Written.decodeFields? levels (insertField key v done) rest

end

end Metrology.Json
