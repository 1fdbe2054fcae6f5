import Metrology.Expression.Basic
import Metrology.Proofs.Text.Blank
import Metrology.Proofs.Text.Integer

/-!
The grammar of expressions, with digits `D`, symbol characters `S` and currency signs `C`:

    sign      [+-]?
    decimal   D+ (. D+)?
    float     sign decimal ([eE] sign D+)?
    unit      S{1,6} (-? D+)?
    tail      ([*⋅·/] unit)*
    money     sign C decimal [kKmMbBtT]? tail
    physical  (float ' '?)? '/'? unit tail

`Derives` relates a text to the expressions that it can be read as: money, and physical quantities with the
longest number that the text begins with as their amount.
-/

namespace Metrology.Expression
open Text

/-! ### Numbers -/

inductive IsSign : List Char → Prop where
  | none : IsSign []
  | plus : IsSign ['+']
  | minus : IsSign ['-']

inductive IsFraction : List Char → Prop where
  | none : IsFraction []
  | some {ds : List Char} : IsDigits ds → IsFraction ('.' :: ds)

inductive IsDecimal : List Char → Prop where
  | intro {whole fraction : List Char} : IsDigits whole → IsFraction fraction → IsDecimal (whole ++ fraction)

inductive IsPower : List Char → Prop where
  | none : IsPower []
  | some {c : Char} {sign ds : List Char} : c = 'e' ∨ c = 'E' → IsSign sign → IsDigits ds →
      IsPower (c :: (sign ++ ds))

inductive IsFloat : List Char → Prop where
  | intro {sign decimal power : List Char} : IsSign sign → IsDecimal decimal → IsPower power →
      IsFloat (sign ++ decimal ++ power)

/-! ### Units -/

structure IsSpelling (cs : List Char) : Prop where
  ne_nil : cs ≠ []
  isSymbolChar : ∀ c ∈ cs, isSymbolChar c = true
  length_le : cs.length ≤ 6

/-- The digits are worth an exponent, and so within its range. -/
inductive IsExponent : List Char → Option Exponent → Prop where
  | none : IsExponent [] none
  | positive {ds : List Char} {e : Exponent} : IsDigits ds → e.val = Nat.ofDigitChars 10 ds 0 →
      IsExponent ds (some e)
  | negative {ds : List Char} {e : Exponent} : IsDigits ds → e.val = -(Nat.ofDigitChars 10 ds 0 : Int) →
      IsExponent ('-' :: ds) (some e)

inductive IsUnit (operator : Operator) : List Char → Token → Prop where
  | intro {spelling power : List Char} {e : Option Exponent} : IsSpelling spelling → IsExponent power e →
      IsUnit operator (spelling ++ power) ⟨operator, spelling, e⟩

def timesSigns : List Char := ['*', '⋅', '·']

inductive IsOperator : Char → Operator → Prop where
  | times {c : Char} : c ∈ timesSigns → IsOperator c .times
  | per : IsOperator '/' .per

inductive IsTail : List Char → List Token → Prop where
  | nil : IsTail [] []
  | cons {c : Char} {operator : Operator} {u cs : List Char} {t : Token} {ts : List Token} :
      IsOperator c operator → IsUnit operator u t → IsTail cs ts → IsTail (c :: (u ++ cs)) (t :: ts)

/-! ### Whole texts -/

def moneyLetters : List Char := ['k', 'K', 'm', 'M', 'b', 'B', 't', 'T']

inductive IsMoney : List Char → Expression → Prop where
  | intro {sign amount tail : List Char} {symbol : Char} {letter : Option Char} {tokens : List Token} :
      IsSign sign → isCurrencySymbol symbol = true → IsDecimal amount → (∀ c ∈ letter, c ∈ moneyLetters) →
      IsTail tail tokens →
      IsMoney (sign ++ symbol :: (amount ++ (letter.toList ++ tail)))
        (.money (sign = ['-']) symbol amount letter tokens)

inductive IsAmount : List Char → Option (List Char) → Prop where
  | none : IsAmount [] none
  | tight {amount : List Char} : IsFloat amount → IsAmount amount (some amount)
  | spaced {amount : List Char} : IsFloat amount → IsAmount (amount ++ [' ']) (some amount)

inductive IsLeading : List Char → Operator → Prop where
  | times : IsLeading [] .times
  | per : IsLeading ['/'] .per

inductive IsPhysical : List Char → Expression → Prop where
  | intro {front leading unit tail : List Char} {amount : Option (List Char)} {operator : Operator} {t : Token}
      {ts : List Token} :
      IsAmount front amount → IsLeading leading operator → IsUnit operator unit t → IsTail tail ts →
      IsPhysical (front ++ (leading ++ (unit ++ tail))) (.physical amount (t :: ts))

/-- `amount` is the longest number that the text begins with, and absent only where it begins with none. -/
def IsLongest (cs : List Char) : Option (List Char) → Prop
  | none => ∀ p, p <+: cs → ¬IsFloat p
  | some amount => ∀ p, p <+: cs → IsFloat p → p.length ≤ amount.length

inductive Derives (cs : List Char) : Expression → Prop where
  | money {e : Expression} : IsMoney cs e → Derives cs e
  | physical {amount : Option (List Char)} {tokens : List Token} : IsPhysical cs (.physical amount tokens) →
      IsLongest cs amount → Derives cs (.physical amount tokens)

theorem IsSign.of_minus {cs : List Char} (h : cs = [] ∨ cs = ['-']) : IsSign cs := by
  rcases h with rfl | rfl
  · exact .none
  · exact .minus

theorem IsTail.isSpelling {cs : List Char} {ts : List Token} (h : IsTail cs ts) : ∀ t ∈ ts, IsSpelling t.spelling := by
  induction h with
  | nil => simp
  | cons _ unit _ ih =>
    rw [List.forall_mem_cons]
    refine ⟨?_, ih⟩
    obtain ⟨spelling, -⟩ := unit
    exact spelling

theorem IsPhysical.isSpelling {cs : List Char} {amount : Option (List Char)} {tokens : List Token}
    (h : IsPhysical cs (.physical amount tokens)) :
    tokens ≠ [] ∧ ∀ t ∈ tokens, IsSpelling t.spelling := by
  obtain ⟨-, -, unit, tail⟩ := h
  refine ⟨by simp, ?_⟩
  rw [List.forall_mem_cons]
  refine ⟨?_, tail.isSpelling⟩
  obtain ⟨spelling, -⟩ := unit
  exact spelling

theorem Derives.isPhysical {cs : List Char} {amount : Option (List Char)} {tokens : List Token}
    (h : Derives cs (.physical amount tokens)) : IsPhysical cs (.physical amount tokens) := by
  cases h with
  | money money => cases money
  | physical physical => exact physical

theorem Derives.isMoney {cs amount : List Char} {negative : Bool} {symbol : Char} {letter : Option Char}
    {tokens : List Token} (h : Derives cs (.money negative symbol amount letter tokens)) :
    IsMoney cs (.money negative symbol amount letter tokens) := by
  cases h with
  | money money => exact money

theorem IsMoney.parts {cs amount : List Char} {negative : Bool} {symbol : Char} {letter : Option Char}
    {tokens : List Token} (h : IsMoney cs (.money negative symbol amount letter tokens)) :
    isCurrencySymbol symbol = true ∧ (∀ c ∈ letter, c ∈ moneyLetters) ∧ ∀ t ∈ tokens, IsSpelling t.spelling := by
  obtain ⟨-, currency, -, listed, tail⟩ := h
  exact ⟨currency, listed, tail.isSpelling⟩

/-! ### Characters -/

def isNumberChar (c : Char) : Bool :=
  c.isDigit || ['+', '-', '.', 'e', 'E'].contains c

theorem isNumberChar_of_isDigit {c : Char} (h : c.isDigit = true) : isNumberChar c = true := by
  simp [isNumberChar, h]

theorem IsSign.isNumberChar {cs : List Char} (h : IsSign cs) : ∀ c ∈ cs, isNumberChar c = true := by
  cases h <;> simp [Expression.isNumberChar]

theorem IsDigits.isNumberChar {cs : List Char} (h : IsDigits cs) : ∀ c ∈ cs, isNumberChar c = true :=
  fun c member => isNumberChar_of_isDigit (h.isDigit c member)

theorem IsDecimal.isNumberChar {cs : List Char} (h : IsDecimal cs) : ∀ c ∈ cs, isNumberChar c = true := by
  obtain ⟨whole, fraction⟩ := h
  rw [List.forall_mem_append]
  refine ⟨IsDigits.isNumberChar whole, ?_⟩
  cases fraction with
  | none => simp
  | some digits =>
    rw [List.forall_mem_cons]
    exact ⟨by decide, IsDigits.isNumberChar digits⟩

theorem IsFloat.isNumberChar {cs : List Char} (h : IsFloat cs) : ∀ c ∈ cs, isNumberChar c = true := by
  obtain ⟨sign, decimal, power⟩ := h
  rw [List.forall_mem_append, List.forall_mem_append]
  refine ⟨⟨sign.isNumberChar, decimal.isNumberChar⟩, ?_⟩
  cases power with
  | none => simp
  | some mark sign digits =>
    rw [List.forall_mem_cons, List.forall_mem_append]
    refine ⟨?_, sign.isNumberChar, IsDigits.isNumberChar digits⟩
    rcases mark with rfl | rfl <;> decide

theorem isDigit_of_isSymbolChar {c : Char} (h : isSymbolChar c = true) : c.isDigit = false := by
  unfold isSymbolChar at h
  rw [Bool.or_eq_true] at h
  rcases h with letter | listed
  · have code := toNat_of_isAlpha letter
    rw [← Bool.not_eq_true, Char.isDigit_iff_toNat]
    simp
    omega
  · simp at listed
    rcases listed with rfl | rfl | rfl | rfl | rfl | rfl | rfl <;> decide

theorem isBlank_of_isSymbolChar {c : Char} (h : isSymbolChar c = true) : Text.isBlank c = false := by
  unfold isSymbolChar at h
  rw [Bool.or_eq_true] at h
  rcases h with letter | listed
  · exact Text.isBlank_of_isAlpha letter
  · simp at listed
    rcases listed with rfl | rfl | rfl | rfl | rfl | rfl | rfl <;> decide

theorem not_isSymbolChar {c : Char} (h : c.isDigit = true) : isSymbolChar c = false := by
  by_contra letter
  rw [Bool.not_eq_false] at letter
  simp [isDigit_of_isSymbolChar letter] at h

theorem ne_of_isSymbolChar {c d : Char} (h : isSymbolChar c = true) (h' : isSymbolChar d = false) : c ≠ d := by
  rintro rfl
  simp [h] at h'

theorem ne_of_isDigit {c d : Char} (h : c.isDigit = true) (h' : d.isDigit = false) : c ≠ d := by
  rintro rfl
  simp [h] at h'

theorem IsSpelling.solid {cs : List Char} (h : IsSpelling cs) : ∀ c ∈ cs, Text.isBlank c = false :=
  fun c member => isBlank_of_isSymbolChar (h.isSymbolChar c member)

theorem IsSpelling.trim {cs : List Char} (h : IsSpelling cs) : Text.trim cs = cs :=
  Text.trim_eq (fun c head => h.solid c (List.mem_of_head? head)) fun c last => h.solid c (List.mem_of_getLast? last)

/-! ### What an expression begins with -/

theorem IsDecimal.exists_cons {cs : List Char} (h : IsDecimal cs) : ∃ c rest, cs = c :: rest ∧ c.isDigit = true := by
  obtain ⟨whole, -⟩ := h
  obtain ⟨c, rest, rfl, digit⟩ := whole.exists_cons
  exact ⟨c, _, rfl, digit⟩

theorem IsUnit.exists_cons {operator : Operator} {cs : List Char} {t : Token} (h : IsUnit operator cs t) :
    ∃ c rest, cs = c :: rest ∧ Metrology.isSymbolChar c = true := by
  obtain ⟨spelling, -⟩ := h
  obtain ⟨c, rest, rfl⟩ := List.exists_cons_of_ne_nil spelling.ne_nil
  exact ⟨c, _, rfl, spelling.isSymbolChar c List.mem_cons_self⟩

/-- What is left of a text after its sign. -/
def unsigned (cs : List Char) : List Char :=
  cs.dropWhile fun c => c == '+' || c == '-'

theorem head?_unsigned {sign : List Char} {c : Char} (h : IsSign sign) (plus : c ≠ '+') (minus : c ≠ '-')
    (rest : List Char) : (unsigned (sign ++ c :: rest)).head? = some c := by
  cases h <;> simp [unsigned, plus, minus]

theorem isCurrencySymbol_spec {c : Char} (h : isCurrencySymbol c = true) :
    c ≠ '+' ∧ c ≠ '-' ∧ c ≠ '/' ∧ c.isDigit = false ∧ Metrology.isSymbolChar c = false := by
  simp [isCurrencySymbol, currencySymbols] at h
  rcases h with rfl | rfl | rfl | rfl | rfl | rfl | rfl | rfl <;> decide

theorem IsMoney.unsigned {cs : List Char} {e : Expression} (h : IsMoney cs e) :
    ∃ c ∈ (unsigned cs).head?, isCurrencySymbol c = true := by
  obtain ⟨sign, currency, -, -, -⟩ := h
  obtain ⟨plus, minus, -⟩ := isCurrencySymbol_spec currency
  exact ⟨_, head?_unsigned sign plus minus _, currency⟩

theorem IsFloat.unsigned {cs : List Char} (h : IsFloat cs) (rest : List Char) :
    ∃ c ∈ (unsigned (cs ++ rest)).head?, c.isDigit = true := by
  obtain ⟨sign, decimal, -⟩ := h
  obtain ⟨c, tail, rfl, digit⟩ := decimal.exists_cons
  refine ⟨c, ?_, digit⟩
  simp only [List.append_assoc, List.cons_append]
  exact head?_unsigned sign (ne_of_isDigit digit (by decide)) (ne_of_isDigit digit (by decide)) _

theorem IsFloat.ne_nil {cs : List Char} (h : IsFloat cs) : cs ≠ [] := by
  rintro rfl
  obtain ⟨c, head, -⟩ := h.unsigned []
  cases head

theorem IsUnit.ne_nil {operator : Operator} {cs : List Char} {t : Token} (h : IsUnit operator cs t) : cs ≠ [] := by
  obtain ⟨c, rest, rfl, -⟩ := h.exists_cons
  simp

theorem IsPhysical.unsigned {cs : List Char} {e : Expression} (h : IsPhysical cs e) :
    ∃ c ∈ (unsigned cs).head?, c.isDigit = true ∨ c = '/' ∨ Metrology.isSymbolChar c = true := by
  obtain ⟨amount, leading, unit, -⟩ := h
  cases amount with
  | none =>
    cases leading with
    | times =>
      obtain ⟨c, rest, rfl, letter⟩ := unit.exists_cons
      refine ⟨c, ?_, .inr (.inr letter)⟩
      exact head?_unsigned .none (ne_of_isSymbolChar letter (by decide)) (ne_of_isSymbolChar letter (by decide)) _
    | per => exact ⟨'/', rfl, .inr (.inl rfl)⟩
  | tight float =>
    obtain ⟨c, head, digit⟩ := float.unsigned _
    exact ⟨c, head, .inl digit⟩
  | spaced float =>
    obtain ⟨c, head, digit⟩ := float.unsigned _
    rw [List.append_assoc]
    exact ⟨c, head, .inl digit⟩

/-- No text is both money and a physical quantity. -/
theorem IsMoney.not_physical {cs : List Char} {e e' : Expression} (money : IsMoney cs e) : ¬IsPhysical cs e' := by
  intro physical
  obtain ⟨c, head, currency⟩ := money.unsigned
  obtain ⟨c', head', other⟩ := physical.unsigned
  obtain rfl : c = c' := Option.some.inj (head.symm.trans head')
  obtain ⟨-, -, slash, digit, letter⟩ := isCurrencySymbol_spec currency
  rcases other with other | other | other
  · simp [other] at digit
  · exact slash other
  · simp [other] at letter

end Metrology.Expression
