import Metrology.Proofs.Decimal.Numeral
import Metrology.Proofs.Registry.Builtin
import Metrology.Proofs.Registry.Resolution

/-!
Why a text is no quantity. A `Fault` is a reason to refuse a text: its shape, a currency or a token that the
registry does not know, a letter that its currency does not take, or a divisor to the least power. Amounts are
none, since the grammar lets through what the reader takes. Main statement: `parse_fault`.
-/

namespace Metrology
open Text Outcome

variable {α : Type} {r : Registry α} {cs : List Char} {e : Error} {expression : Expression} {t : Token} {ts : List Token}
  {symbol : Char} {letter : Option Char} {token : String} {n : Exponent}

namespace Exponent

/-- Only the least exponent has no opposite. -/
theorem neg?_eq_none_iff : n.neg? = none ↔ n.val = -2147483648 := by
  have lower := n.min_le
  have upper := n.le_max
  unfold neg? ofInt?
  split
  · simp only [reduceCtorEq, false_iff]
    omega
  · simp only [true_iff]
    omega

end Exponent

namespace Factor

theorem invert_error {u : Factor α} :
    u.invert = .error e ↔ e = .exponentOutOfRange u.spelling ∧ u.exponent.val = -2147483648 := by
  rw [← Exponent.neg?_eq_none_iff, invert]
  cases u.exponent.neg? with
  | none => simp [withExponent?, eq_comm]
  | some n => simp [withExponent?]

end Factor

namespace Expression

/-- The amount as it is written. -/
def amount? : Expression → Option (List Char)
  | .money _ _ amount _ _ => some amount
  | .physical amount _ => amount

def tokens : Expression → List Token
  | .money _ _ _ _ tokens => tokens
  | .physical _ tokens => tokens

theorem IsDecimal.isFloat (h : IsDecimal cs) : IsFloat cs := by
  have float := IsFloat.intro .none h .none
  rwa [List.nil_append, List.append_nil] at float

/-- The amount of an expression is a float of the grammar. -/
theorem Derives.isFloat (h : Derives cs expression) : ∀ amount ∈ expression.amount?, IsFloat amount := by
  rintro amount written
  cases h with
  | money money =>
    obtain ⟨-, -, decimal, -, -⟩ := money
    obtain rfl := Option.some.inj written
    exact decimal.isFloat
  | physical physical =>
    obtain rfl : _ = some amount := written
    obtain ⟨front, -, -, -⟩ := physical
    cases front with
    | tight float => exact float
    | spaced float => exact float

end Expression

namespace Registry
open Expression

/-! ### Tokens -/

/-- A token names no unit, or divides by one to the least power. -/
inductive TokenFault (r : Registry α) (t : Token) : Error → Prop where
  | unknown : r.readings[String.ofList t.spelling]? = none → TokenFault r t (.unknownUnit (String.ofList t.spelling))
  | exponent {reading : Reading α} {n : Exponent} : r.readings[String.ofList t.spelling]? = some reading →
      t.operator = .per → t.exponent = some n → n.val = -2147483648 →
      TokenFault r t (.exponentOutOfRange (Factor.spelling ⟨reading.base, reading.pre, n⟩))

theorem resolveToken_error : r.resolveToken t = .error e ↔ TokenFault r t e := by
  cases read : r.readings[String.ofList t.spelling]? with
  | none =>
    have unknown : r.resolve _ (t.exponent.getD 1) = _ := resolve_error.mpr ⟨rfl, read⟩
    rw [resolveToken, unknown]
    constructor
    · intro h
      obtain rfl := Except.error.inj h
      exact .unknown read
    · rintro (_ | found)
      · rfl
      · simp [read] at found
  | some reading =>
    have known : r.resolve (String.ofList t.spelling) (t.exponent.getD 1) =
        .ok ⟨reading.base, reading.pre, t.exponent.getD 1⟩ := by rw [resolve, read]
    rw [resolveToken, known]
    constructor
    · intro h
      cases operator : t.operator with
      | times =>
        rw [operator] at h
        cases h
      | per =>
        rw [operator] at h
        obtain ⟨rfl, least⟩ := Factor.invert_error.mp h
        cases written : t.exponent with
        | none =>
          rw [written] at least
          cases least
        | some n =>
          rw [written] at least
          exact .exponent read operator written least
    · intro fault
      cases fault with
      | unknown missing => simp [read] at missing
      | exponent found operator written least =>
        obtain rfl := Option.some.inj (read.symm.trans found)
        rw [operator, written]
        exact Factor.invert_error.mpr ⟨rfl, least⟩

theorem resolveTokens_error (h : ts.mapM r.resolveToken = .error e) : ∃ t ∈ ts, TokenFault r t e := by
  obtain ⟨t, member, failed⟩ := mapM_error h
  exact ⟨t, member, resolveToken_error.mp failed⟩

theorem TokenFault.not_resolved (fault : TokenFault r t e) (member : t ∈ ts) {us : List (Factor α)} :
    ts.mapM r.resolveToken ≠ .ok us := by
  intro resolved
  obtain ⟨u, found⟩ := ok_of_mem_mapM resolved member
  rw [resolveToken_error.mpr fault] at found
  cases found

/-! ### Currencies -/

/-- A symbol names no unit, or one that does not accept the letter after the amount. -/
inductive CurrencyFault (r : Registry α) (symbol : Char) (letter : Option Char) : Error → Prop where
  | unknown : r.readings[String.singleton symbol]? = none → CurrencyFault r symbol letter (.unknownCurrency symbol)
  | letter {reading : Reading α} {c : Char} : r.readings[String.singleton symbol]? = some reading → letter = some c →
      (∀ p ∈ reading.base.prefixes, p.symbol ≠ String.singleton c) →
      CurrencyFault r symbol letter (.invalidCurrencyPrefix c)

theorem resolveCurrency_error : r.resolveCurrency symbol letter = .error e ↔ CurrencyFault r symbol letter e := by
  cases read : r.readings[String.singleton symbol]? with
  | none =>
    have unknown : r.resolve _ 1 = _ := resolve_error.mpr ⟨rfl, read⟩
    rw [resolveCurrency, unknown]
    constructor
    · intro h
      obtain rfl := Except.error.inj h
      exact .unknown read
    · rintro (_ | found)
      · rfl
      · simp [read] at found
  | some reading =>
    have known : r.resolve (String.singleton symbol) 1 = .ok ⟨reading.base, reading.pre, 1⟩ := by rw [resolve, read]
    have refused (c : Char) : reading.base.findPrefix? (String.singleton c) = none ↔
        ∀ p ∈ reading.base.prefixes, p.symbol ≠ String.singleton c := by
      simp [BaseUnit.findPrefix?, List.find?_eq_none]
    rw [resolveCurrency, known]
    constructor
    · intro h
      cases letter with
      | none => cases h
      | some c =>
        dsimp only at h
        split at h
        · cases h
        · rename_i none
          obtain rfl := Except.error.inj h
          exact .letter read rfl ((refused c).mp none)
    · intro fault
      cases fault with
      | unknown missing => simp [read] at missing
      | letter found written foreign =>
        obtain rfl := Option.some.inj (read.symm.trans found)
        subst written
        simp only [(refused _).mpr foreign]

/-! ### Texts -/

/-- A reason to refuse a text, and the error that names it. -/
inductive Fault (r : Registry α) (cs : List Char) : Error → Prop where
  | shape : (∀ expression, ¬Derives cs expression) → Fault r cs (.malformedQuantity (String.ofList cs))
  | currency {negative : Bool} {symbol : Char} {amount : List Char} {letter : Option Char} {tokens : List Token}
      {e : Error} : Derives cs (.money negative symbol amount letter tokens) → CurrencyFault r symbol letter e →
      Fault r cs e
  | token {expression : Expression} {t : Token} {e : Error} : Derives cs expression → t ∈ expression.tokens →
      TokenFault r t e → Fault r cs e

section Reading

variable [Scalar α]

theorem exists_readAmount (h : IsFloat cs) : ∃ x, (readAmount cs : Except Error α) = .ok x := by
  obtain ⟨x, read⟩ := Decimal.exists_readFloat? h
  exact ⟨Scalar.ofFloat x, by rw [readAmount, read]⟩

theorem evaluate_error (derives : Derives cs expression) (h : r.evaluate expression = .error e) : Fault r cs e := by
  have float := derives.isFloat
  cases expression with
  | money negative symbol amount letter tokens =>
    obtain ⟨x, read⟩ := exists_readAmount (α := α) (float amount rfl)
    rcases bind_error h with unread | ⟨_, -, h⟩
    · rw [read] at unread
      cases unread
    · rcases bind_error h with foreign | ⟨_, -, h⟩
      · exact .currency derives (resolveCurrency_error.mp foreign)
      · rcases bind_error h with unresolved | ⟨_, -, h⟩
        · obtain ⟨t, member, fault⟩ := resolveTokens_error unresolved
          exact .token derives member fault
        · cases h
  | physical amount tokens =>
    rcases bind_error h with unread | ⟨_, -, h⟩
    · cases amount with
      | none => cases unread
      | some amount =>
        obtain ⟨x, read⟩ := exists_readAmount (α := α) (float amount rfl)
        rw [Option.elim_some, read] at unread
        cases unread
    · rcases bind_error h with unresolved | ⟨_, -, h⟩
      · obtain ⟨t, member, fault⟩ := resolveTokens_error unresolved
        exact .token derives member fault
      · cases h

theorem evaluate_of_token (member : t ∈ expression.tokens) (fault : TokenFault r t e) {q : Quantity α} :
    r.evaluate expression ≠ .ok q := by
  intro h
  cases expression with
  | money negative symbol amount letter tokens =>
    obtain ⟨_, -, h⟩ := bind_ok h
    obtain ⟨_, -, h⟩ := bind_ok h
    obtain ⟨_, resolved, -⟩ := bind_ok h
    exact fault.not_resolved member resolved
  | physical amount tokens =>
    obtain ⟨_, -, h⟩ := bind_ok h
    obtain ⟨_, resolved, -⟩ := bind_ok h
    exact fault.not_resolved member resolved

theorem evaluate_of_currency {negative : Bool} {amount : List Char} (fault : CurrencyFault r symbol letter e)
    {q : Quantity α} : r.evaluate (.money negative symbol amount letter ts) ≠ .ok q := by
  intro h
  obtain ⟨_, -, h⟩ := bind_ok h
  obtain ⟨_, coined, -⟩ := bind_ok h
  rw [resolveCurrency_error.mpr fault] at coined
  cases coined

variable {text : String}

theorem fault_of_parse (h : r.parse text = .error e) : Fault r (trim text.toList) e := by
  unfold parse at h
  dsimp only at h
  split at h
  · rename_i expression scanned
    exact evaluate_error (scan?_eq_some_iff.mp scanned) h
  · rename_i unscanned
    obtain rfl := Except.error.inj h
    refine .shape fun expression derives => ?_
    rw [scan?_eq_some_iff.mpr derives] at unscanned
    cases unscanned

theorem Fault.not_parsed (fault : Fault r (trim text.toList) e) {q : Quantity α} : r.parse text ≠ .ok q := by
  intro h
  unfold parse at h
  dsimp only at h
  split at h
  · rename_i expression scanned
    cases fault with
    | shape shapeless => exact shapeless expression (scan?_eq_some_iff.mp scanned)
    | currency derives fault =>
      obtain rfl := Option.some.inj (scanned.symm.trans (scan?_eq_some_iff.mpr derives))
      exact evaluate_of_currency fault h
    | token derives member fault =>
      obtain rfl := Option.some.inj (scanned.symm.trans (scan?_eq_some_iff.mpr derives))
      exact evaluate_of_token member fault h
  · cases h

theorem refused_iff_fault : (∃ e, r.parse text = .error e) ↔ ∃ e, Fault r (trim text.toList) e := by
  constructor
  · rintro ⟨e, refused⟩
    exact ⟨e, fault_of_parse refused⟩
  · rintro ⟨e, fault⟩
    cases parsed : r.parse text with
    | ok q => exact absurd parsed fault.not_parsed
    | error e' => exact ⟨e', rfl⟩

omit [Scalar α] in
theorem not_fault_amount {amount : String} : ¬Fault r cs (.invalidAmount amount) := by
  intro fault
  cases fault with
  | currency _ fault => cases fault
  | token _ _ fault => cases fault

/-- What is scanned has a float of the grammar for its amount, which the reader takes, so no text is refused for
its amount. A text is refused exactly if it has a fault, and with the error of one. -/
theorem parse_fault (r : Registry α) (text : String) :
    (∀ cs expression, scan? cs = some expression →
      ∀ amount ∈ expression.amount?, IsFloat amount ∧ ∃ x, Decimal.readFloat? amount = some x) ∧
    (∀ amount, r.parse text ≠ .error (.invalidAmount amount)) ∧
    ((∃ e, r.parse text = .error e) ↔ ∃ e, Fault r (trim text.toList) e) ∧
    ∀ e, r.parse text = .error e → Fault r (trim text.toList) e := by
  refine ⟨?_, fun amount refused => not_fault_amount (fault_of_parse refused), refused_iff_fault, fun e => fault_of_parse⟩
  intro cs expression scanned amount written
  have float := (scan?_eq_some_iff.mp scanned).isFloat amount written
  exact ⟨float, Decimal.exists_readFloat? float⟩

end Reading

theorem parse_fault_samples :
    (∃ x, Decimal.readFloat? "-1.5e+3".toList = some x) ∧ (∃ e, standard.parse "3 m^2" = .error e) ∧
      ∃ e, standard.parse "1/m-2147483648" = .error e ∧ Fault standard (trim "1/m-2147483648".toList) e := by
  obtain ⟨amounts, -, misshapen, -⟩ := parse_fault standard "3 m^2"
  obtain ⟨-, -, divisor, named⟩ := parse_fault standard "1/m-2147483648"
  have scanned : scan? "-1.5e+3 m".toList = some (.physical (some "-1.5e+3".toList) [⟨.times, ['m'], none⟩]) ∧
      scan? (trim "3 m^2".toList) = none ∧
      scan? (trim "1/m-2147483648".toList) = some (.physical (some ['1']) [⟨.per, ['m'], some .least⟩]) := by
    decide +kernel
  have shape : ∃ e, Fault standard (trim "3 m^2".toList) e := by
    refine ⟨_, .shape fun expression derives => ?_⟩
    rw [← scan?_eq_some_iff, scanned.2.1] at derives
    cases derives
  have metre : standard.readings["m"]? = some ⟨Builtin.metre, none⟩ :=
    (standard_indexed.getElem?_readings _).trans (reading?_symbol standard_indexed.distinct Builtin.metre_mem)
  obtain ⟨e, refused⟩ := divisor.mpr
    ⟨_, .token (scan?_eq_some_iff.mp scanned.2.2) List.mem_cons_self (.exponent metre rfl rfl rfl)⟩
  exact ⟨(amounts _ _ scanned.1 _ rfl).2, misshapen.mpr shape, e, refused, named e refused⟩

end Registry

end Metrology
