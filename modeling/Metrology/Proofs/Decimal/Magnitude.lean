import Metrology.Proofs.Decimal.Numeral

/-!
The numerals of the doubles, those without digits included. Their powers of ten stay within the range of
exponents, so that a numeral can be parted from its plain text. Main statements: `split_plain_ofFloat` and
`readFloat?_plain_ofFloat`.
-/

namespace Metrology
open Text Expression Double Float.Model

/-! ### The magnitude of a shortest decimal -/

namespace Decimal

variable {x : Float} {d : Decimal} {m n k : Nat} {e q g : Int} {tie : Tie}

theorem strip_bounds (small : n < 10 ^ k) (e : Int) :
    (strip n e).1 < 10 ^ k ∧ min e 0 ≤ (strip n e).2 ∧ (strip n e).2 ≤ max (e + k) 0 := by
  -- Each zero at the end of `n` is one of its digits.
  induction k generalizing n e with
  | zero =>
    obtain rfl : n = 0 := by omega
    rw [strip_zero]
    omega
  | succ k ih =>
    by_cases ends : n ≠ 0 ∧ n % 10 = 0
    · obtain ⟨some, multiple⟩ := ends
      obtain ⟨j, rfl⟩ : ∃ j, n = j * 10 := ⟨n / 10, by omega⟩
      obtain ⟨fewer, low, high⟩ := ih (n := j) (by omega) (e + 1)
      rw [strip_ten (by omega)]
      omega
    · by_cases zero : n = 0
      · rw [zero, strip_zero]
        omega
      · rw [strip_of_last (by omega)]
        omega

theorem magnitude_ofParts_bounds (small : n < 10 ^ k) (some : 0 < k) (negative : Bool) (e : Int) :
    min e 0 ≤ (ofParts negative n e).magnitude ∧ (ofParts negative n e).magnitude ≤ max (e + k) 0 + k := by
  obtain ⟨fewer, low, high⟩ := strip_bounds small e
  have length : (Nat.toDigits 10 (strip n e).1).length ≤ k := (Nat.length_toDigits_le_iff (by decide) some).mpr fewer
  have digit : 0 < (Nat.toDigits 10 (strip n e).1).length := Nat.length_toDigits_pos
  unfold magnitude digits ofParts
  dsimp only
  omega

theorem onGrid?_ofParts (h : onGrid? tie x m q g = some d) :
    ∃ n ≤ (gridRatio m q g).1 + 1, d = ofParts false n g := by
  have lower := Nat.div_le_self (gridRatio m q g).1 (gridRatio m q g).2
  unfold onGrid? at h
  dsimp only at h
  split_ifs at h
  · cases h
    exact ⟨_, Nat.succ_le_succ lower, rfl⟩
  · cases h
    exact ⟨_, Nat.le_succ_of_le lower, rfl⟩
  · cases h
    exact ⟨_, Nat.succ_le_succ lower, rfl⟩

theorem product_lt {b : Nat} (small : m < 2 ^ 53) (base : b ≤ 10) (i j : Nat) :
    m * Nat.pow 2 i * Nat.pow b j < 10 ^ (53 + i + j) := by
  have mantissa : m < 10 ^ 53 := small.trans_le (Nat.pow_le_pow_left (by decide) 53)
  have first : Nat.pow 2 i ≤ 10 ^ i := Nat.pow_le_pow_left (by decide) i
  have second : Nat.pow b j ≤ 10 ^ j := Nat.pow_le_pow_left base j
  calc
    m * Nat.pow 2 i * Nat.pow b j ≤ m * 10 ^ i * 10 ^ j := Nat.mul_le_mul (Nat.mul_le_mul_left m first) second
    _ < 10 ^ 53 * 10 ^ i * 10 ^ j :=
      Nat.mul_lt_mul_of_pos_right (Nat.mul_lt_mul_of_pos_right mantissa (by positivity)) (by positivity)
    _ = 10 ^ (53 + i + j) := by rw [Nat.pow_add, Nat.pow_add]

theorem coarsestGrid_bounds (canonical : Canonical m q) (fits : q ≤ 971) (some : m ≠ 0) :
    -322 ≤ coarsestGrid m q ∧ coarsestGrid m q ≤ 310 := by
  have bits : m.log2 < 53 := (Nat.log2_lt some).mpr canonical.mantissa_lt
  have least := canonical.least
  unfold coarsestGrid
  omega

/-- The search and the expansion keep to a few thousand places. -/
theorem shortest_magnitude (canonical : Canonical m q) (fits : q ≤ 971) (some : m ≠ 0) (tie : Tie) (x : Float) :
    -1074 ≤ (shortest tie x m q).magnitude ∧ (shortest tie x m q).magnitude ≤ 10000 := by
  have small := canonical.mantissa_lt
  have least := canonical.least
  unfold shortest
  dsimp only
  cases found : (List.range 24).findSome? fun i : Nat => onGrid? tie x m q (coarsestGrid m q - i) with
  | none =>
    have bounds := magnitude_ofParts_bounds (product_lt small (b := 5) (by decide) q.toNat (-q).toNat) (by omega) false
      (if q < 0 then q else 0)
    rw [Option.getD_none, expansion]
    omega
  | some d =>
    obtain ⟨i, listed, hit⟩ := List.exists_of_findSome?_eq_some found
    obtain ⟨n, bound, rfl⟩ := onGrid?_ofParts hit
    have grid := coarsestGrid_bounds canonical fits some
    have near : i < 24 := List.mem_range.mp listed
    have product := product_lt small (b := 10) (by decide) q.toNat (-(coarsestGrid m q - i)).toNat
    have below : n < 10 ^ (53 + q.toNat + (-(coarsestGrid m q - i)).toNat + 1) := by
      rw [Nat.pow_succ]
      have positive : 0 < 10 ^ (53 + q.toNat + (-(coarsestGrid m q - i)).toNat) := by positivity
      simp only [gridRatio] at bound
      omega
    have bounds := magnitude_ofParts_bounds below (by omega) false (coarsestGrid m q - i)
    rw [Option.getD_some]
    omega

theorem ofFloat?_magnitude (h : ofFloat? tie x = some d) : -1074 ≤ d.magnitude ∧ d.magnitude ≤ 10000 := by
  unfold ofFloat? at h
  split at h
  · rename_i sign m q positive shape
    cases h
    obtain ⟨canonical, fits⟩ := canonical_unpack shape
    exact shortest_magnitude canonical fits positive.ne' tie x.abs
  · rename_i sign _
    cases h
    cases sign <;> decide
  · cases h

/-! ### Doubles without digits -/

theorem readFloat?_plain_ofFloat (x : Float) : readFloat? (Numeral.ofFloat x).plain = some x := by
  by_cases finite : x.isFinite = true
  · exact readFloat?_plain finite
  · rw [isFinite_eq] at finite
    cases shape : x.toModel.unpack with
    | notANumber =>
      rw [← ofModel_pack shape]
      decide +kernel
    | infinity s =>
      rw [← ofModel_pack shape]
      cases s <;> decide +kernel
    | zero s => exact absurd (by rw [shape]; rfl) finite
    | finite s m q p => exact absurd (by rw [shape]; rfl) finite

end Decimal

/-! ### Numerals and their plain text -/

namespace Numeral

variable {n : Numeral} {e : Int}

/-- What a mantissa is made of, the names of the special doubles included. -/
def IsMantissaChar (c : Char) : Prop :=
  c.toNat < 128 ∧ c ≠ 'e' ∧ c ≠ 'E'

theorem isMantissaChar_of_isDigit {c : Char} (h : c.isDigit = true) : IsMantissaChar c := by
  have code := Char.isDigit_iff_toNat.mp h
  simp at code
  exact ⟨by omega, ne_of_isDigit h (by decide), ne_of_isDigit h (by decide)⟩

theorem isMantissaChar_of_isDecimal {cs : List Char} (h : IsDecimal cs) : ∀ c ∈ cs, IsMantissaChar c := by
  obtain ⟨whole, fraction⟩ := h
  rw [List.forall_mem_append]
  refine ⟨fun c member => isMantissaChar_of_isDigit (whole.isDigit c member), ?_⟩
  cases fraction with
  | none => nofun
  | some digits =>
    rw [List.forall_mem_cons]
    exact ⟨by simp [IsMantissaChar], fun c member => isMantissaChar_of_isDigit (digits.isDigit c member)⟩

theorem exists_mantissa (d : Decimal) : ∃ body, (ofDecimal d).mantissa = d.signText ++ body ∧ IsDecimal body := by
  unfold ofDecimal
  split
  · obtain ⟨body, k, text, spelled⟩ := d.exists_positional
    exact ⟨body, text, spelled.decimal⟩
  · obtain ⟨body, text, spelled⟩ := d.exists_mantissa
    exact ⟨body, text, spelled.decimal⟩

theorem mantissa_ofFloat (x : Float) :
    (ofFloat x).mantissa ≠ [] ∧ ∀ c ∈ (ofFloat x).mantissa, IsMantissaChar c := by
  unfold ofFloat
  split
  · rename_i d _
    obtain ⟨body, text, decimal⟩ := exists_mantissa d
    obtain ⟨c, tail, nonempty, -⟩ := decimal.exists_cons
    rw [text, List.forall_mem_append]
    refine ⟨by simp [nonempty], ?_, isMantissaChar_of_isDecimal decimal⟩
    unfold Decimal.signText
    split_ifs <;> simp [IsMantissaChar]
  · unfold special
    dsimp only
    split_ifs <;> simp [IsMantissaChar]

theorem split_plain (letters : ∀ c ∈ n.mantissa, IsMantissaChar c)
    (range : ∀ e ∈ n.power, -2147483648 ≤ e ∧ e ≤ 2147483647) : split n.plain = n := by
  have inside : ∀ c ∈ n.mantissa, (!(c == 'e' || c == 'E')) = true := by
    intro c member
    simp [(letters c member).2]
  obtain ⟨mantissa, power⟩ := n
  cases power with
  | none =>
    have rest : mantissa.dropWhile (fun c => !(c == 'e' || c == 'E')) = [] := List.dropWhile_eq_nil_iff.mpr inside
    simp only [split, plain, rest]
  | some e =>
    have stop : ∀ c ∈ ('e' :: Text.plain e).head?, (!(c == 'e' || c == 'E')) = false := by simp
    have front := takeWhile_append_stop inside stop
    have rest := dropWhile_append_stop inside stop
    have read : Exponent.ofChars? (Text.plain e) = some ⟨e, (range e rfl).1, (range e rfl).2⟩ := by
      rw [Exponent.ofChars?, readInt?_plain]
      exact Exponent.ofInt?_eq_some_iff.mpr rfl
    simp only [split, plain, front, rest, read]

/-- The numeral of a double is parted from its plain text. -/
theorem split_plain_ofFloat (x : Float) : split (ofFloat x).plain = ofFloat x := by
  refine split_plain (mantissa_ofFloat x).2 ?_
  intro e power
  unfold ofFloat at power
  split at power
  · rename_i d shortest
    have bounds := Decimal.ofFloat?_magnitude shortest
    unfold ofDecimal at power
    split at power
    · cases power
    · cases power
      omega
  · cases power

end Numeral

end Metrology
