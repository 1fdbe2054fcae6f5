import Metrology.Expression.Basic

/-!
# Scanning expressions

Each scanner takes the longest lexeme of its kind off the front of a text and returns it with the
rest. `Expression.scan?` reads a whole text, as money when it can and as a physical quantity
otherwise.
-/

namespace Metrology.Expression

/-! ### Amounts -/

def scanDigits (cs : List Char) : List Char × List Char :=
  (cs.takeWhile Char.isDigit, cs.dropWhile Char.isDigit)

def scanSign : List Char → List Char × List Char
  | '+' :: cs => (['+'], cs)
  | '-' :: cs => (['-'], cs)
  | cs => ([], cs)

/-- A point and the digits after it, or nothing. -/
def scanFraction : List Char → List Char × List Char
  | '.' :: cs =>
    let (digits, rest) := scanDigits cs
    if digits = [] then ([], '.' :: cs) else ('.' :: digits, rest)
  | cs => ([], cs)

/-- Digits with an optional fraction. -/
def scanDecimal? (cs : List Char) : Option (List Char × List Char) :=
  let (digits, rest) := scanDigits cs
  if digits = [] then none
  else
    let (fraction, rest) := scanFraction rest
    some (digits ++ fraction, rest)

/-- A power of ten, or nothing. -/
def scanPower : List Char → List Char × List Char
  | [] => ([], [])
  | c :: cs =>
    if c = 'e' ∨ c = 'E' then
      let (sign, rest) := scanSign cs
      let (digits, rest) := scanDigits rest
      if digits = [] then ([], c :: cs) else (c :: sign ++ digits, rest)
    else ([], c :: cs)

/-- A decimal with an optional sign and an optional power of ten. -/
def scanFloat? (cs : List Char) : Option (List Char × List Char) := do
  let (sign, rest) := scanSign cs
  let (decimal, rest) ← scanDecimal? rest
  let (power, rest) := scanPower rest
  return (sign ++ decimal ++ power, rest)

/-! ### Units -/

def scanMinus : List Char → List Char × List Char
  | '-' :: cs => (['-'], cs)
  | cs => ([], cs)

/-- The exponent of a unit. A minus without digits is none and stays; digits out of range are an
error. -/
def scanExponent? (cs : List Char) : Option (Option Exponent × List Char) :=
  let (minus, rest) := scanMinus cs
  let (digits, rest) := scanDigits rest
  if digits = [] then some (none, cs)
  else (Exponent.ofChars? (minus ++ digits)).map fun e => (some e, rest)

/-- One to six symbol characters and an optional exponent. -/
def scanUnit? (operator : Operator) (cs : List Char) : Option (Token × List Char) :=
  let spelling := cs.takeWhile isSymbolChar
  if spelling = [] ∨ maxSpelling < spelling.length then none
  else (scanExponent? (cs.dropWhile isSymbolChar)).map fun (exponent, rest) =>
    (⟨operator, spelling, exponent⟩, rest)

theorem length_scanMinus_le (cs : List Char) : (scanMinus cs).2.length ≤ cs.length := by
  unfold scanMinus
  split
  · exact Nat.le_succ _
  · exact Nat.le_refl _

theorem length_of_scanExponent? {cs rest : List Char} {e : Option Exponent}
    (h : scanExponent? cs = some (e, rest)) : rest.length ≤ cs.length := by
  unfold scanExponent? at h
  dsimp only at h
  split at h
  · cases h; exact Nat.le_refl _
  · obtain ⟨_, _, h⟩ := Option.map_eq_some_iff.1 h
    cases h
    exact Nat.le_trans (List.dropWhile_suffix _).length_le (length_scanMinus_le cs)

theorem length_of_scanUnit? {operator : Operator} {cs rest : List Char} {t : Token}
    (h : scanUnit? operator cs = some (t, rest)) : rest.length ≤ cs.length := by
  unfold scanUnit? at h
  dsimp only at h
  split at h
  · cases h
  · obtain ⟨⟨e, r⟩, he, h⟩ := Option.map_eq_some_iff.1 h
    cases h
    exact Nat.le_trans (length_of_scanExponent? he) (List.dropWhile_suffix _).length_le

/-- Operators and units in turn, up to the end of the text. -/
def scanTail? : List Char → Option (List Token)
  | [] => some []
  | c :: cs =>
    match operator? c with
    | none => none
    | some operator =>
      match h : scanUnit? operator cs with
      | none => none
      | some (token, rest) =>
        have : rest.length < (c :: cs).length := Nat.lt_succ_of_le (length_of_scanUnit? h)
        (scanTail? rest).map (token :: ·)
termination_by cs => cs.length
decreasing_by assumption

/-! ### Whole texts -/

/-- The letter after an amount of money. -/
def scanLetter : List Char → Option Char × List Char
  | c :: cs => if isMoneyLetter c then (some c, cs) else (none, c :: cs)
  | [] => (none, [])

/-- An optional sign, a currency symbol, a decimal, an optional letter and further units. -/
def scanMoney? (cs : List Char) : Option Expression :=
  let (sign, rest) := scanSign cs
  match rest with
  | [] => none
  | symbol :: rest =>
    if isCurrencySymbol symbol then do
      let (amount, rest) ← scanDecimal? rest
      let (letter, rest) := scanLetter rest
      let tokens ← scanTail? rest
      return .money (sign = ['-']) symbol amount letter tokens
    else none

/-- The operator before the first unit: a slash, or nothing. -/
def scanLeading : List Char → Operator × List Char
  | '/' :: cs => (.per, cs)
  | cs => (.times, cs)

/-- The amount at the front, with the one space that may follow it. -/
def scanAmount (cs : List Char) : Option (List Char) × List Char :=
  match scanFloat? cs with
  | some (amount, ' ' :: rest) => (some amount, rest)
  | some (amount, rest) => (some amount, rest)
  | none => (none, cs)

/-- An optional amount, an optional slash, a unit and further units. -/
def scanPhysical? (cs : List Char) : Option Expression := do
  let (amount, rest) := scanAmount cs
  let (operator, rest) := scanLeading rest
  let (token, rest) ← scanUnit? operator rest
  let tokens ← scanTail? rest
  return .physical amount (token :: tokens)

def scan? (cs : List Char) : Option Expression :=
  (scanMoney? cs).or (scanPhysical? cs)

end Metrology.Expression
