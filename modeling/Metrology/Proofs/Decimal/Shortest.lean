import Metrology.Decimal.Shortest
import Metrology.Proofs.Scalar.Exact

/-!
The shortest decimal of a double reads back as the double, whichever way the search for it ends. Main
statement: `ofFloat?_reads_back`.
-/

namespace Metrology.Decimal
open Double Scalar Float.Model

variable {x : Float} {d : Decimal} {m n : Nat} {e q g : Int} {tie : Tie}

/-! ### Stripped decimals -/

/-- No zeros at the end of the significand, and one spelling of zero. -/
structure Stripped (d : Decimal) : Prop where
  zero : d.significand = 0 → d.exponent = 0
  last : d.significand ≠ 0 → d.significand % 10 ≠ 0

theorem strip_of_last (h : n % 10 ≠ 0) (e : Int) : strip n e = (n, e) := by
  have some : n ≠ 0 := by
    rintro rfl
    simp at h
  unfold strip
  simp [h, some]

theorem strip_zero (e : Int) : strip 0 e = (0, 0) := by
  unfold strip
  simp

theorem strip_ten (some : n ≠ 0) (e : Int) : strip (n * 10) e = strip n (e + 1) := by
  rw [strip, dif_pos (by omega), Nat.mul_div_cancel n (by decide)]

theorem strip_shift (n k : Nat) (e : Int) : strip (n * 10 ^ k) (e - k) = strip n e := by
  rcases Nat.eq_zero_or_pos n with rfl | positive
  · rw [Nat.zero_mul, strip_zero, strip_zero]
  · induction k generalizing e with
    | zero => simp
    | succ k ih =>
      have some : n * 10 ^ k ≠ 0 := (Nat.mul_pos positive (by positivity)).ne'
      have shifted : e - ((k + 1 : Nat) : Int) + 1 = e - k := by omega
      rw [Nat.pow_succ, ← Nat.mul_assoc, strip_ten some, shifted, ih]

theorem strip_spec (n : Nat) (e : Int) (negative : Bool) :
    Stripped ⟨negative, (strip n e).1, (strip n e).2⟩ ∧ ((strip n e).1 : Rat) * 10 ^ (strip n e).2 = n * 10 ^ e := by
  -- Along the zeros at the end of `n`.
  induction n using Nat.strong_induction_on generalizing e with
  | _ n ih =>
    by_cases ends : n ≠ 0 ∧ n % 10 = 0
    · obtain ⟨some, multiple⟩ := ends
      obtain ⟨k, rfl⟩ : ∃ k, n = k * 10 := ⟨n / 10, by omega⟩
      have smaller : k ≠ 0 := by
        rintro rfl
        simp at some
      obtain ⟨stripped, value⟩ := ih k (by omega) (e + 1)
      rw [strip_ten smaller]
      refine ⟨stripped, ?_⟩
      rw [value, zpow_add₀ (by norm_num), zpow_one]
      push_cast
      ring
    · by_cases zero : n = 0
      · subst zero
        rw [strip_zero]
        exact ⟨⟨fun _ => rfl, fun some => absurd rfl some⟩, by simp⟩
      · have last : n % 10 ≠ 0 := fun multiple => ends ⟨zero, multiple⟩
        rw [strip_of_last last]
        exact ⟨⟨fun none => absurd none zero, fun _ => last⟩, rfl⟩

theorem ofParts_shift (negative : Bool) (n k : Nat) (e : Int) :
    ofParts negative (n * 10 ^ k) (e - k) = ofParts negative n e := by
  rw [ofParts, ofParts, strip_shift]

theorem ofParts_of_stripped (h : d.Stripped) : ofParts d.negative d.significand d.exponent = d := by
  unfold ofParts
  by_cases zero : d.significand = 0
  · rw [zero, strip_zero, ← zero, ← h.zero zero]
  · rw [strip_of_last (h.last zero)]

theorem stripped_ofParts (negative : Bool) (n : Nat) (e : Int) : (ofParts negative n e).Stripped :=
  (strip_spec n e negative).1

/-! ### The value of a decimal -/

theorem toFloat_ofParts (positive : 0 < exactValue x) (value : (n : Rat) * 10 ^ e = exactValue x) :
    (ofParts false n e).toFloat = x :=
  ofScientific_exact positive ((strip_spec n e false).2.trans value)

theorem expansion_toFloat (positive : 0 < exactValue x) (value : exactValue x = m * 2 ^ q) :
    (expansion m q).toFloat = x := by
  refine toFloat_ofParts positive ?_
  rw [value, Nat.pow_eq, Nat.pow_eq]
  split
  · rename_i negative
    obtain ⟨k, rfl⟩ : ∃ k : Nat, q = -k := ⟨(-q).toNat, by omega⟩
    have none : (-(k : Int)).toNat = 0 := by omega
    have all : (- -(k : Int)).toNat = k := by omega
    rw [none, all, zpow_neg, zpow_neg, zpow_natCast, zpow_natCast, show (10 : Rat) = 5 * 2 by norm_num, mul_pow]
    push_cast
    field_simp
  · rename_i whole
    obtain ⟨k, rfl⟩ : ∃ k : Nat, q = k := ⟨q.toNat, by omega⟩
    have none : (-(k : Int)).toNat = 0 := by omega
    rw [none, Int.toNat_natCast, zpow_natCast]
    push_cast
    simp

/-! ### The search -/

theorem onGrid?_some (h : onGrid? tie x m q g = some d) : d.toFloat = x ∧ d.negative = false ∧ d.Stripped := by
  unfold onGrid? at h
  dsimp only at h
  split at h
  · rename_i low
    split at h
    · rename_i high
      cases h
      exact ⟨high.1, rfl, stripped_ofParts ..⟩
    · cases h
      exact ⟨low, rfl, stripped_ofParts ..⟩
  · split at h
    · rename_i high
      cases h
      exact ⟨high, rfl, stripped_ofParts ..⟩
    · cases h

/-- A neighbour that is found reads back by its test, and the expansion because it is exact. -/
theorem shortest_spec (tie : Tie) (positive : 0 < exactValue x) (value : exactValue x = m * 2 ^ q) :
    (shortest tie x m q).toFloat = x ∧ (shortest tie x m q).negative = false ∧ (shortest tie x m q).Stripped := by
  unfold shortest
  dsimp only
  cases found : (List.range 24).findSome? fun i : Nat => onGrid? tie x m q (coarsestGrid m q - i) with
  | none => exact ⟨expansion_toFloat positive value, rfl, stripped_ofParts ..⟩
  | some d =>
    obtain ⟨i, -, hit⟩ := List.exists_of_findSome?_eq_some found
    exact onGrid?_some hit

/-! ### Doubles with a sign -/

theorem unpack_abs_finite {s : UnpackedFloat.Sign} {p : 0 < m} (h : x.toModel.unpack = .finite s m q p) :
    x.abs.toModel.unpack = .finite .positive m q p := by
  rw [unpack_abs, h]
  rfl

theorem abs_of_positive {p : 0 < m} (h : x.toModel.unpack = .finite .positive m q p) : x.abs = x :=
  (ofModel_pack (unpack_abs_finite h)).symm.trans (ofModel_pack h)

theorem neg_abs_of_negative {p : 0 < m} (h : x.toModel.unpack = .finite .negative m q p) : -x.abs = x := by
  refine Eq.trans ?_ (ofModel_pack h)
  show Float.ofModel (Float.Model.pack x.abs.toModel.unpack.neg) = _
  rw [unpack_abs_finite h]
  rfl

theorem toFloat_of_nonnegative (h : d.negative = false) :
    d.toFloat = Float.ofScientific d.significand (decide (d.exponent < 0)) d.exponent.natAbs := by
  rw [toFloat, h]
  rfl

theorem ofFloat?_reads_back (tie : Tie) (finite : x.isFinite = true) :
    ∃ d, ofFloat? tie x = some d ∧ d.toFloat = x ∧ d.Stripped := by
  unfold ofFloat?
  rw [isFinite_eq] at finite
  cases shape : x.toModel.unpack with
  | notANumber => simp [shape, UnpackedFloat.isFinite] at finite
  | infinity s => simp [shape, UnpackedFloat.isFinite] at finite
  | zero s =>
    refine ⟨_, rfl, ?_, ⟨fun _ => rfl, fun some => absurd rfl some⟩⟩
    rw [← ofModel_pack shape]
    cases s <;> decide +kernel
  | finite s m q p =>
    have magnitude := unpack_abs_finite shape
    have value : exactValue x.abs = m * 2 ^ q := by
      rw [exactValue_eq, magnitude]
      exact one_mul _
    have mantissa : (0 : Rat) < m := by exact_mod_cast p
    obtain ⟨back, positive, stripped⟩ := shortest_spec tie (by rw [value]; positivity) value
    rw [toFloat_of_nonnegative positive] at back
    refine ⟨_, rfl, ?_, ⟨stripped.zero, stripped.last⟩⟩
    cases s with
    | positive => exact back.trans (abs_of_positive shape)
    | negative => exact (congrArg (-·) back).trans (neg_abs_of_negative shape)

end Metrology.Decimal
