import Metrology.Quantity.Format
import Metrology.Registry.Parse
import Metrology.Proofs.Expression.Scanner
import Metrology.Proofs.Factor
import Metrology.Proofs.Outcome
import Metrology.Proofs.Text.Blank

/-!
The plain text of factors. A factor is `Readable` when its own spelling stands for it; it is then written
as a unit that resolves to it. `foldl_add` says what a list of factors adds to a text, and
`exists_tail` that this is read back as the list.
-/

namespace Metrology
open Text Expression Outcome

variable {α : Type} {r : Registry α} {u v : Factor α} {us : List (Factor α)}

/-! ### Units without blanks -/

namespace Expression

variable {cs : List Char} {e : Option Exponent} {operator : Operator} {t : Token}

theorem isBlank_of_isNumberChar {c : Char} (h : isNumberChar c = true) : isBlank c = false := by
  unfold isNumberChar at h
  rw [Bool.or_eq_true] at h
  rcases h with digit | listed
  · exact isBlank_of_isDigit digit
  · simp at listed
    rcases listed with rfl | rfl | rfl | rfl | rfl <;> decide

theorem IsExponent.solid (h : IsExponent cs e) : ∀ c ∈ cs, isBlank c = false := by
  cases h with
  | none => nofun
  | positive digits => exact fun c member => isBlank_of_isDigit (digits.isDigit c member)
  | negative digits =>
    rw [List.forall_mem_cons]
    exact ⟨by decide, fun c member => isBlank_of_isDigit (digits.isDigit c member)⟩

theorem IsUnit.solid (h : IsUnit operator cs t) : ∀ c ∈ cs, isBlank c = false := by
  obtain ⟨spelling, exponent⟩ := h
  rw [List.forall_mem_append]
  exact ⟨spelling.solid, exponent.solid⟩

end Expression

/-! ### Single factors -/

namespace Factor

/-- The spelling of the factor is a unit, stands for the factor, and its reciprocal can be written. -/
structure Readable (r : Registry α) (u : Factor α) : Prop where
  isSpelling : IsSpelling u.spelling.toList
  reading : r.readings[u.spelling]? = some ⟨u.base, u.pre⟩
  exponent : u.exponent.val ≠ -2147483648

theorem Readable.resolve (h : u.Readable r) (e : Exponent) :
    r.resolve (String.ofList u.spelling.toList) e = .ok { u with exponent := e } := by
  rw [String.ofList_toList, Registry.resolve, h.reading]

theorem Readable.not_currency (h : u.Readable r) : u.base.isCurrency = false := by
  have letters : ∀ c ∈ u.base.symbol.toList, isSymbolChar c = true := by
    intro c member
    apply h.isSpelling.isSymbolChar
    rw [spelling, String.toList_append]
    exact List.mem_append_right _ member
  unfold BaseUnit.isCurrency
  split
  · rename_i c symbol
    rw [← Bool.not_eq_true]
    intro currency
    have letter := letters c (by rw [symbol]; exact List.mem_singleton_self c)
    simp [(isCurrencySymbol_spec currency).2.2.2.2] at letter
  · rfl

theorem exists_exponent {e : Exponent} (nonneg : 0 ≤ e.val) :
    ∃ e', IsExponent (if e.val = 1 then [] else Style.ascii.exponent e.val) e' ∧ e'.getD 1 = e := by
  by_cases one : e.val = 1
  · refine ⟨none, ?_, Exponent.val_inj.mp one.symm⟩
    rw [if_pos one]
    exact .none
  · refine ⟨some e, ?_, rfl⟩
    rw [if_neg one, Style.exponent, plain_of_nonneg nonneg]
    refine .positive (isDigits_toDigits _) ?_
    rw [Nat.ofDigitChars_toDigits (by decide) (by decide)]
    omega

theorem Readable.resolveToken (h : u.Readable r) {e : Option Exponent} (same : e.getD 1 = u.exponent) :
    r.resolveToken ⟨.times, u.spelling.toList, e⟩ = .ok u :=
  bind_ok_iff.mpr ⟨u, by rw [same, h.resolve], rfl⟩

theorem Readable.resolveToken_per (h : u.Readable r) {e : Exponent} {e' : Option Exponent} (same : e'.getD 1 = e)
    (opposite : e.val = -u.exponent.val) : r.resolveToken ⟨.per, u.spelling.toList, e'⟩ = .ok u := by
  have back : e.neg? = some u.exponent := Exponent.ofInt?_eq_some_iff.mpr (by omega)
  refine bind_ok_iff.mpr ⟨{ u with exponent := e }, by rw [same, h.resolve], ?_⟩
  show withExponent? { u with exponent := e } e.neg? = .ok u
  rw [back]
  rfl

theorem Readable.render (h : u.Readable r) (nonneg : 0 ≤ u.exponent.val) :
    ∃ t, IsUnit .times (u.render .ascii) t ∧ r.resolveToken t = .ok u := by
  obtain ⟨e, exponent, same⟩ := exists_exponent nonneg
  exact ⟨_, .intro h.isSpelling exponent, h.resolveToken same⟩

theorem Readable.opposite (h : u.Readable r) : ∃ e : Exponent, e.val = -u.exponent.val := by
  have least := u.exponent.min_le
  have greatest := u.exponent.le_max
  have some := h.exponent
  exact ⟨⟨-u.exponent.val, by omega, by omega⟩, rfl⟩

theorem Readable.renderReciprocal (h : u.Readable r) (negative : u.exponent.val < 0) :
    ∃ t, IsUnit .per (u.renderReciprocal .ascii) t ∧ r.resolveToken t = .ok u := by
  obtain ⟨e, opposite⟩ := h.opposite
  obtain ⟨e', exponent, same⟩ := exists_exponent (e := e) (by omega)
  rw [opposite] at exponent
  exact ⟨_, .intro h.isSpelling exponent, h.resolveToken_per same opposite⟩

/-! ### Lists of factors -/

/-- What a factor adds to a text in which it has others before it. -/
def following (u : Factor α) : List Char :=
  if u.exponent.val < 0 then '/' :: u.renderReciprocal .ascii else '*' :: u.render .ascii

theorem Readable.following (h : u.Readable r) :
    ∃ c operator cs t, u.following = c :: cs ∧ IsOperator c operator ∧ IsUnit operator cs t ∧
      r.resolveToken t = .ok u := by
  unfold Factor.following
  split
  · rename_i negative
    obtain ⟨t, unit, resolved⟩ := h.renderReciprocal negative
    exact ⟨_, _, _, t, rfl, .per, unit, resolved⟩
  · rename_i nonneg
    obtain ⟨t, unit, resolved⟩ := h.render (Int.not_lt.mp nonneg)
    exact ⟨_, _, _, t, rfl, .times (by decide), unit, resolved⟩

theorem exists_tail (readable : ∀ u ∈ us, u.Readable r) :
    ∃ ts, IsTail (us.flatMap following) ts ∧ ts.mapM r.resolveToken = .ok us := by
  induction us with
  | nil => exact ⟨[], .nil, rfl⟩
  | cons u us ih =>
    rw [List.forall_mem_cons] at readable
    obtain ⟨c, operator, cs, t, text, sign, unit, resolved⟩ := readable.1.following
    obtain ⟨ts, tail, more⟩ := ih readable.2
    refine ⟨t :: ts, ?_, ?_⟩
    · rw [List.flatMap_cons, text]
      exact .cons sign unit tail
    · rw [List.mapM_cons, resolved, more]
      rfl

end Factor

namespace Quantity.Layout

variable {l : Layout}

theorem add_divisor (negative : u.exponent.val < 0) : l.add .ascii u = { l with units := l.units ++ u.following } := by
  rw [add, if_pos negative, Factor.following, if_pos negative]

theorem add_product (h : u.Readable r) (nonneg : 0 ≤ u.exponent.val) :
    l.add .ascii u = { l with units := l.units ++ l.joint .ascii u ++ u.render .ascii, hasProduct := true } := by
  rw [add, if_neg (Int.not_lt.mpr nonneg), if_neg]
  rintro ⟨-, currency⟩
  simp [h.not_currency] at currency

/-- No factor that is no currency touches the amount, and none ends in a blank. -/
theorem add_frame (h : u.Readable r) (ends : ∀ c ∈ l.units.getLast?, isBlank c = false) :
    (l.add .ascii u).amount = l.amount ∧ ∀ c ∈ (l.add .ascii u).units.getLast?, isBlank c = false := by
  rcases Int.lt_or_le u.exponent.val 0 with negative | nonneg
  · obtain ⟨t, unit, -⟩ := h.renderReciprocal negative
    have slash : ∀ c ∈ '/' :: u.renderReciprocal .ascii, isBlank c = false := by
      rw [List.forall_mem_cons]
      exact ⟨by decide, unit.solid⟩
    rw [add_divisor negative, Factor.following, if_pos negative]
    exact ⟨rfl, getLast?_append_solid ends fun c last => slash c (List.mem_of_getLast? last)⟩
  · obtain ⟨t, unit, -⟩ := h.render nonneg
    rw [add_product h nonneg]
    refine ⟨rfl, ?_⟩
    intro c last
    dsimp only at last
    rw [List.getLast?_append_of_ne_nil _ unit.ne_nil] at last
    exact unit.solid c (List.mem_of_getLast? last)

theorem foldl_frame (readable : ∀ u ∈ us, u.Readable r) (ends : ∀ c ∈ l.units.getLast?, isBlank c = false) :
    (us.foldl (Layout.add .ascii) l).amount = l.amount ∧
      ∀ c ∈ (us.foldl (Layout.add .ascii) l).units.getLast?, isBlank c = false := by
  induction us generalizing l with
  | nil => exact ⟨rfl, ends⟩
  | cons u us ih =>
    rw [List.forall_mem_cons] at readable
    obtain ⟨amount, last⟩ := add_frame readable.1 ends
    obtain ⟨amounts, lasts⟩ := ih readable.2 last
    exact ⟨amounts.trans amount, lasts⟩

/-- Divisors come alone, and all other factors once there is one among the units. -/
theorem foldl_add (readable : ∀ u ∈ us, u.Readable r) (placed : l.hasProduct = true ∨ ∀ u ∈ us, u.exponent.val < 0) :
    us.foldl (Layout.add .ascii) l = { l with units := l.units ++ us.flatMap Factor.following } := by
  induction us generalizing l with
  | nil => simp
  | cons u us ih =>
    rw [List.forall_mem_cons] at readable placed
    rw [List.foldl_cons, List.flatMap_cons]
    rcases Int.lt_or_le u.exponent.val 0 with negative | nonneg
    · rw [add_divisor negative, ih readable.2]
      · simp
      · exact placed.imp id And.right
    · have product : l.hasProduct = true := placed.resolve_right fun ⟨negative, _⟩ => absurd negative (Int.not_lt.mpr nonneg)
      have sign : u.following = '*' :: u.render .ascii := by rw [Factor.following, if_neg (Int.not_lt.mpr nonneg)]
      rw [add_product readable.1 nonneg, ih readable.2 (.inl rfl), joint, if_pos product, sign, product]
      simp [Style.separator]

end Quantity.Layout

end Metrology
