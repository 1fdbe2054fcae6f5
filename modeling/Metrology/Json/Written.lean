/-!
# JSON as written

`Written.ofChars?` takes a JSON text apart by its grammar and keeps numbers and strings as they
are spelled. Limits on nesting, on the range of numbers and on surrogates are left to the decoding
of the parts that are wanted.
-/

namespace Metrology.Json

/-- A piece of a string: a character, or a UTF-16 unit given by its four hexadecimal digits. -/
inductive Piece where
  | char (c : Char)
  | unit (n : Nat)
  deriving DecidableEq, Repr

/-- A number as spelled. The power is its sign and digits. -/
structure NumberText where
  negative : Bool
  whole : List Char
  fraction : Option (List Char)
  power : Option (Bool × List Char)
  deriving DecidableEq, Repr

/-- A JSON value as spelled. -/
inductive Written where
  | null
  | bool (b : Bool)
  | number (n : NumberText)
  | string (pieces : List Piece)
  | array (elements : List Written)
  | object (fields : List (List Piece × Written))

namespace Written

def skipBlanks (cs : List Char) : List Char :=
  cs.dropWhile fun c => c == ' ' || c == '\n' || c == '\t' || c == '\r'

/-! ### Strings -/

def hexDigit? (c : Char) : Option Nat :=
  if '0' ≤ c ∧ c ≤ '9' then some (c.toNat - '0'.toNat)
  else if 'a' ≤ c ∧ c ≤ 'f' then some (c.toNat - 'a'.toNat + 10)
  else if 'A' ≤ c ∧ c ≤ 'F' then some (c.toNat - 'A'.toNat + 10)
  else none

def hexUnit? (digits : List Char) : Option Nat :=
  (digits.mapM hexDigit?).map (List.foldl (fun n d => 16 * n + d) 0)

/-- The character that a backslash and `c` stand for. -/
def escape? (c : Char) : Option Char :=
  match c with
  | '"' => some '"'
  | '\\' => some '\\'
  | '/' => some '/'
  | 'b' => some '\x08'
  | 'f' => some '\x0c'
  | 'n' => some '\n'
  | 'r' => some '\r'
  | 't' => some '\t'
  | _ => none

/-- The pieces up to the closing quote, after those in `done`, which is held in reverse. -/
def readPieces? (done : List Piece) : List Char → Option (List Piece × List Char)
  | [] => none
  | '"' :: rest => some (done.reverse, rest)
  | '\\' :: 'u' :: a :: b :: c :: d :: rest =>
    match hexUnit? [a, b, c, d] with
    | some n => readPieces? (.unit n :: done) rest
    | none => none
  | '\\' :: c :: rest =>
    match escape? c with
    | some c => readPieces? (.char c :: done) rest
    | none => none
  | c :: rest => if c < ' ' ∨ c = '\\' then none else readPieces? (.char c :: done) rest

/-! ### Numbers -/

/-- One or more digits and the rest. -/
def readDigits? (cs : List Char) : Option (List Char × List Char) :=
  let digits := cs.takeWhile Char.isDigit
  if digits = [] then none else some (digits, cs.dropWhile Char.isDigit)

/-- The whole part: no zero stands before another digit. -/
def readWhole? (cs : List Char) : Option (List Char × List Char) :=
  match readDigits? cs with
  | some ('0' :: _ :: _, _) => none
  | result => result

def readFraction? : List Char → Option (Option (List Char) × List Char)
  | '.' :: cs => (readDigits? cs).map fun (digits, rest) => (some digits, rest)
  | cs => some (none, cs)

def readPower? : List Char → Option (Option (Bool × List Char) × List Char)
  | [] => some (none, [])
  | c :: cs =>
    if c = 'e' ∨ c = 'E' then
      let (negative, cs) :=
        match cs with
        | '-' :: cs => (true, cs)
        | '+' :: cs => (false, cs)
        | cs => (false, cs)
      (readDigits? cs).map fun (digits, rest) => (some (negative, digits), rest)
    else some (none, c :: cs)

def readNumber? (cs : List Char) : Option (NumberText × List Char) := do
  let (negative, rest) :=
    match cs with
    | '-' :: rest => (true, rest)
    | rest => (false, rest)
  let (whole, rest) ← readWhole? rest
  let (fraction, rest) ← readFraction? rest
  let (power, rest) ← readPower? rest
  return (⟨negative, whole, fraction, power⟩, rest)

/-! ### Values -/

def readScalar? : List Char → Option (Written × List Char)
  | '"' :: cs => (readPieces? [] cs).map fun (pieces, rest) => (.string pieces, rest)
  | 'n' :: 'u' :: 'l' :: 'l' :: cs => some (.null, cs)
  | 't' :: 'r' :: 'u' :: 'e' :: cs => some (.bool true, cs)
  | 'f' :: 'a' :: 'l' :: 's' :: 'e' :: cs => some (.bool false, cs)
  | cs => (readNumber? cs).map fun (n, rest) => (.number n, rest)

/-- The key of a field and its colon. -/
def readKey? (cs : List Char) : Option (List Piece × List Char) :=
  match skipBlanks cs with
  | '"' :: cs => do
    let (key, rest) ← readPieces? [] cs
    match skipBlanks rest with
    | ':' :: rest => some (key, rest)
    | _ => none
  | _ => none

mutual

/-- A value after any blanks. The first argument bounds the number of nested calls. -/
def readValue? : Nat → List Char → Option (Written × List Char)
  | 0, _ => none
  | n + 1, cs =>
    match skipBlanks cs with
    | '[' :: cs =>
      match skipBlanks cs with
      | ']' :: rest => some (.array [], rest)
      | _ => readElements? n [] cs
    | '\x7b' :: cs =>
      match skipBlanks cs with
      | '\x7d' :: rest => some (.object [], rest)
      | _ => readFields? n [] cs
    | cs => readScalar? cs

/-- The elements up to the closing bracket, after those in `done`, held in reverse. -/
def readElements? : Nat → List Written → List Char → Option (Written × List Char)
  | 0, _, _ => none
  | n + 1, done, cs =>
    match readValue? n cs with
    | none => none
    | some (v, rest) =>
      match skipBlanks rest with
      | ',' :: rest => readElements? n (v :: done) rest
      | ']' :: rest => some (.array (v :: done).reverse, rest)
      | _ => none

/-- The fields up to the closing brace, after those in `done`, held in reverse. -/
def readFields? : Nat → List (List Piece × Written) → List Char → Option (Written × List Char)
  | 0, _, _ => none
  | n + 1, done, cs =>
    match readKey? cs with
    | none => none
    | some (key, rest) =>
      match readValue? n rest with
      | none => none
      | some (v, rest) =>
        match skipBlanks rest with
        | ',' :: rest => readFields? n ((key, v) :: done) rest
        | '\x7d' :: rest => some (.object ((key, v) :: done).reverse, rest)
        | _ => none

end

/-- The value that a whole text spells. Each character nests at most two calls. -/
def ofChars? (cs : List Char) : Option Written :=
  match readValue? (2 * cs.length + 2) cs with
  | some (v, rest) => if skipBlanks rest = [] then some v else none
  | none => none

end Written

end Metrology.Json
