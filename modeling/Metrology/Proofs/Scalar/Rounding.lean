import Metrology.Proofs.Scalar.Binary

/-!
Rounding to the nearest double. The round bit and the sticky bit hold a number within its mantissa
(`Holds`), shifting halves it, and rounding goes to within one half: up to a relative error of
`2 ^ -53` or an absolute one of `2 ^ -1075` (`Rounds`).
-/

namespace Metrology.Double
open Float.Model Float.Model.UnpackedFloat Scalar

variable {m : Nat} {e : Int} {em : ExtendedMantissa} {accuracy : Accuracy} {v : Rat}

/-! ### Residual bits -/

/-- What a mantissa and its residual bits say about a number. -/
def Holds (em : ExtendedMantissa) (v : Rat) : Prop :=
  match em.roundBit, em.stickyBit with
  | false, false => v = em.mantissa
  | false, true => em.mantissa < v ∧ v < em.mantissa + 1 / 2
  | true, false => v = em.mantissa + 1 / 2
  | true, true => em.mantissa + 1 / 2 < v ∧ v < em.mantissa + 1

theorem Holds.mantissa_le (holds : Holds em v) : (em.mantissa : Rat) ≤ v := by
  obtain ⟨m, round, sticky⟩ := em
  cases round <;> cases sticky <;> simp only [Holds] at holds ⊢ <;> linarith

theorem Holds.lt_mantissa (holds : Holds em v) : v < em.mantissa + 1 := by
  obtain ⟨m, round, sticky⟩ := em
  cases round <;> cases sticky <;> simp only [Holds] at holds ⊢ <;> linarith

theorem shiftRightOne_even (k : Nat) (round sticky : Bool) :
    (⟨2 * k, round, sticky⟩ : ExtendedMantissa).shiftRightOne = ⟨k, false, round || sticky⟩ := by
  simp [ExtendedMantissa.shiftRightOne]

theorem shiftRightOne_odd (k : Nat) (round sticky : Bool) :
    (⟨2 * k + 1, round, sticky⟩ : ExtendedMantissa).shiftRightOne = ⟨k, true, round || sticky⟩ := by
  have half : (2 * k + 1) / 2 = k := by omega
  simp [ExtendedMantissa.shiftRightOne, half]

theorem Holds.shiftRightOne (holds : Holds em v) : Holds em.shiftRightOne (v / 2) := by
  obtain ⟨m, round, sticky⟩ := em
  obtain ⟨k, rfl | rfl⟩ : ∃ k, m = 2 * k ∨ m = 2 * k + 1 := ⟨m / 2, by omega⟩
  · rw [shiftRightOne_even]
    cases round <;> cases sticky <;> simp only [Holds, Bool.or_false, Bool.or_true] at holds ⊢ <;>
      push_cast at holds
    · linarith
    · constructor <;> linarith
    · constructor <;> linarith
    · constructor <;> linarith
  · rw [shiftRightOne_odd]
    cases round <;> cases sticky <;> simp only [Holds, Bool.or_false, Bool.or_true] at holds ⊢ <;>
      push_cast at holds
    · linarith
    · constructor <;> linarith
    · constructor <;> linarith
    · constructor <;> linarith

theorem Holds.shiftRight (holds : Holds em v) (n : Nat) : Holds (em >>> n) (v / 2 ^ n) := by
  induction n with
  | zero =>
    rw [pow_zero, div_one]
    exact holds
  | succ n ih =>
    rw [pow_succ, ← div_div]
    exact ih.shiftRightOne

theorem Holds.error (holds : Holds em v) : |(em.roundedMantissa : Rat) - v| ≤ 1 / 2 := by
  obtain ⟨m, round, sticky⟩ := em
  rw [abs_le]
  cases round <;> cases sticky
  · have rounded : (⟨m, false, false⟩ : ExtendedMantissa).roundedMantissa = m := rfl
    simp only [Holds] at holds
    rw [rounded]
    constructor <;> linarith
  · have rounded : (⟨m, false, true⟩ : ExtendedMantissa).roundedMantissa = m := rfl
    simp only [Holds] at holds
    rw [rounded]
    constructor <;> linarith
  · have rounded : (⟨m, true, false⟩ : ExtendedMantissa).roundedMantissa = m + m % 2 := rfl
    have bit : ((m % 2 : Nat) : Rat) ≤ 1 := by exact_mod_cast (by omega : m % 2 ≤ 1)
    have sign : (0 : Rat) ≤ (m % 2 : Nat) := Nat.cast_nonneg _
    simp only [Holds] at holds
    rw [rounded, Nat.cast_add]
    constructor <;> linarith
  · have rounded : (⟨m, true, true⟩ : ExtendedMantissa).roundedMantissa = m + 1 := rfl
    simp only [Holds] at holds
    rw [rounded, Nat.cast_add, Nat.cast_one]
    constructor <;> linarith

theorem roundedMantissa_bounds (em : ExtendedMantissa) :
    em.mantissa ≤ em.roundedMantissa ∧ em.roundedMantissa ≤ em.mantissa + 1 := by
  obtain ⟨m, round, sticky⟩ := em
  cases round <;> cases sticky <;>
    simp only [ExtendedMantissa.roundedMantissa, ExtendedMantissa.accuracy, Accuracy.roundToNearestEven] <;> omega

theorem mantissa_ofMantissaAndAccuracy (m : Nat) (accuracy : Accuracy) :
    (ExtendedMantissa.ofMantissaAndAccuracy m accuracy).mantissa = m := by
  cases accuracy with
  | exact => rfl
  | inexact half => cases half <;> rfl

/-! ### Rounding -/

/-- The exponent that a mantissa is shifted to. -/
def target (m : Nat) (e : Int) : Int :=
  Format.binary64.targetExponent (totalExponent m e)

theorem target_eq (m : Nat) (e : Int) : target m e = max (m.log2 + e - 52) (-1074) :=
  targetExponent_eq m e

/-- With bits enough to round, the first shift goes right and drops none silently. -/
theorem shiftToTargetExponent_holds (room : 52 ≤ m.log2 ∨ e ≤ -1074)
    (holds : Holds (.ofMantissaAndAccuracy m accuracy) v) :
    ∃ em, shiftToTargetExponent .binary64 m e accuracy = (em, target m e) ∧
      Holds em (v * 2 ^ e / 2 ^ target m e) := by
  obtain ⟨k, shift⟩ : ∃ k : Nat, target m e = e + k := by
    have forward : e ≤ target m e := by
      rw [target_eq]
      omega
    exact ⟨(target m e - e).toNat, by omega⟩
  have amount : (target m e - e).toNat = k := by omega
  refine ⟨ExtendedMantissa.ofMantissaAndAccuracy m accuracy >>> k, ?_, ?_⟩
  · show shiftToExponent m e accuracy (target m e) = _
    rw [shiftToExponent, amount, shift]
  · have power : (2 : Rat) ^ e ≠ 0 := zpow_ne_zero e two_ne_zero
    rw [shift, zpow_add₀ two_ne_zero, zpow_natCast, mul_comm v, mul_div_mul_left _ _ power]
    exact holds.shiftRight k

theorem scaled_lt (holds : Holds (.ofMantissaAndAccuracy m accuracy) v) :
    v * 2 ^ e / 2 ^ target m e < 2 ^ 53 := by
  have below := holds.lt_mantissa
  rw [mantissa_ofMantissaAndAccuracy] at below
  have bits : (m : Rat) + 1 ≤ 2 ^ (m.log2 + 1) := by exact_mod_cast Nat.lt_log2_self (n := m)
  have power : (0 : Rat) < 2 ^ e := by positivity
  have reach : (m.log2 : Int) + 1 + e ≤ 53 + target m e := by
    rw [target_eq]
    omega
  rw [div_lt_iff₀ (by positivity)]
  calc v * 2 ^ e < 2 ^ (m.log2 + 1) * 2 ^ e := mul_lt_mul_of_pos_right (below.trans_le bits) power
    _ = 2 ^ ((m.log2 : Int) + 1 + e) := by rw [zpow_add₀ two_ne_zero]; norm_cast
    _ ≤ 2 ^ (53 + target m e) := zpow_le_zpow_right₀ one_le_two reach
    _ = 2 ^ 53 * 2 ^ target m e := by rw [zpow_add₀ two_ne_zero]; norm_cast

theorem le_scaled (room : 52 ≤ m.log2 ∨ e ≤ -1074) (holds : Holds (.ofMantissaAndAccuracy m accuracy) v)
    (above : target m e ≠ -1074) : 2 ^ 52 ≤ v * 2 ^ e / 2 ^ target m e := by
  have least := holds.mantissa_le
  rw [mantissa_ofMantissaAndAccuracy] at least
  have reach : (m.log2 : Int) + e = 52 + target m e := by
    rw [target_eq] at above ⊢
    omega
  have nonzero : m ≠ 0 := by
    rintro rfl
    rw [target_eq] at above
    have log : Nat.log2 0 = 0 := rfl
    omega
  have bits : (2 : Rat) ^ m.log2 ≤ m := by exact_mod_cast Nat.log2_self_le nonzero
  have power : (0 : Rat) < 2 ^ e := by positivity
  rw [le_div_iff₀ (by positivity)]
  calc (2 : Rat) ^ 52 * 2 ^ target m e = 2 ^ (52 + target m e) := by rw [zpow_add₀ two_ne_zero]; norm_cast
    _ = 2 ^ m.log2 * 2 ^ e := by rw [← reach, zpow_add₀ two_ne_zero]; norm_cast
    _ ≤ v * 2 ^ e := mul_le_mul_of_nonneg_right (bits.trans least) power.le

theorem shiftToTargetExponent_zero {t : Int} (least : -1074 ≤ t) :
    shiftToTargetExponent .binary64 0 t .exact = (⟨0, false, false⟩, t) := by
  have still : (target 0 t - t).toNat = 0 := by
    have log : Nat.log2 0 = 0 := rfl
    rw [target_eq]
    omega
  show shiftToExponent 0 t .exact (target 0 t) = _
  rw [shiftToExponent, still, Int.natCast_zero, add_zero]
  rfl

/-- The second shift makes room for a carry and changes no value. -/
theorem roundWithAccuracy_value {t : Int} (s : Sign) (shifted : shiftToTargetExponent .binary64 m e accuracy = (em, t))
    (bounded : em.roundedMantissa ≤ 2 ^ 53) (least : -1074 ≤ t) (normal : 2 ^ 52 ≤ em.roundedMantissa ∨ t = -1074) :
    Regular (roundWithAccuracy .binary64 s m e accuracy) ∧
      unpackedValue (roundWithAccuracy .binary64 s m e accuracy) = signum s * (em.roundedMantissa * 2 ^ t) := by
  by_cases zero : em.roundedMantissa = 0
  · have second := shiftToTargetExponent_zero least
    have result : roundWithAccuracy .binary64 s m e accuracy = .zero s := by
      simp only [roundWithAccuracy, shifted, zero, second, dite_true]
    rw [result, zero, Nat.cast_zero, zero_mul, mul_zero]
    exact ⟨trivial, rfl⟩
  · have positive : 0 < em.roundedMantissa := Nat.pos_of_ne_zero zero
    by_cases carry : em.roundedMantissa = 2 ^ 53
    · have canonical : Canonical (2 ^ 52) (t + 1) := ⟨by decide, by omega, .inl le_rfl⟩
      have second := shiftToTargetExponent_zeros (by decide) ((canonical_iff (by decide)).mp canonical) 1
      have result : roundWithAccuracy .binary64 s m e accuracy = .finite s (2 ^ 52) (t + 1) (by decide) := by
        rw [show 2 ^ 52 * 2 ^ 1 = 2 ^ 53 by decide, Int.natCast_one, add_sub_cancel_right] at second
        simp only [roundWithAccuracy, shifted, carry, second]
        exact dif_neg (by decide)
      rw [result, carry]
      refine ⟨canonical, ?_⟩
      rw [unpackedValue, zpow_add₀ two_ne_zero]
      push_cast
      ring
    · have canonical : Canonical em.roundedMantissa t := ⟨by omega, least, normal⟩
      have second := shiftToTargetExponent_zeros positive ((canonical_iff positive).mp canonical) 0
      rw [pow_zero, Nat.mul_one, Int.natCast_zero, sub_zero] at second
      have result : roundWithAccuracy .binary64 s m e accuracy = .finite s em.roundedMantissa t positive := by
        simp only [roundWithAccuracy, shifted, second, dif_neg zero]
      rw [result]
      exact ⟨canonical, rfl⟩

/-! ### The error of rounding -/

def unitRoundoff : Rat := 2 ^ (-53 : Int)

/-- Half of the least positive double. -/
def leastHalf : Rat := 2 ^ (-1075 : Int)

theorem unitRoundoff_pos : 0 < unitRoundoff := by
  unfold unitRoundoff
  positivity

theorem leastHalf_pos : 0 < leastHalf := by
  unfold leastHalf
  positivity

/-- How far rounding may go from `v`. -/
def slack (v : Rat) : Rat :=
  max (unitRoundoff * |v|) leastHalf

theorem slack_signum (s : Sign) (v : Rat) : slack (signum s * v) = slack v := by
  rw [slack, slack, abs_signum_mul]

/-- A value of the shape of a double, as near to `v` as rounding gets. -/
structure Rounds (v : Rat) (u : UnpackedFloat) : Prop where
  regular : Regular u
  near : |unpackedValue u - v| ≤ slack v

theorem Rounds.of_eq {u : UnpackedFloat} (regular : Regular u) (same : unpackedValue u = v) : Rounds v u := by
  refine ⟨regular, ?_⟩
  rw [same, sub_self, abs_zero]
  exact le_max_of_le_right leastHalf_pos.le

/-- The bits left after the first shift, rounded. -/
theorem shifted_bounds {t : Int} {w : Rat} (held : Holds em w) (below : w < 2 ^ 53)
    (above : t ≠ -1074 → 2 ^ 52 ≤ w) :
    em.roundedMantissa ≤ 2 ^ 53 ∧ (2 ^ 52 ≤ em.roundedMantissa ∨ t = -1074) := by
  obtain ⟨atLeast, atMost⟩ := roundedMantissa_bounds em
  have mantissa_lt : em.mantissa < 2 ^ 53 := by exact_mod_cast held.mantissa_le.trans_lt below
  refine ⟨by omega, ?_⟩
  by_cases least : t = -1074
  · exact .inr least
  · have large : (2 : Rat) ^ 52 < (em.mantissa + 1 : Nat) := by
      push_cast
      exact (above least).trans_lt held.lt_mantissa
    have bits : 2 ^ 52 < em.mantissa + 1 := by exact_mod_cast large
    exact .inl (by omega)

/-- Half a unit in the last place of a number with 53 bits, or of the least exponent. -/
theorem half_le_slack {t : Int} {w : Rat} (above : t ≠ -1074 → 2 ^ 52 ≤ w) :
    (2 : Rat) ^ (t - 1) ≤ slack (w * 2 ^ t) := by
  rw [slack, le_max_iff]
  by_cases least : t = -1074
  · right
    rw [least]
    exact le_rfl
  · left
    have power : (0 : Rat) < 2 ^ t := by positivity
    calc (2 : Rat) ^ (t - 1) = unitRoundoff * (2 ^ 52 * 2 ^ t) := by
          rw [unitRoundoff, ← zpow_natCast, ← zpow_add₀ two_ne_zero, ← zpow_add₀ two_ne_zero]
          congr 1
          push_cast
          omega
      _ ≤ unitRoundoff * |w * 2 ^ t| := by
          refine mul_le_mul_of_nonneg_left ?_ unitRoundoff_pos.le
          exact (mul_le_mul_of_nonneg_right (above least) power.le).trans (le_abs_self _)

theorem rounds_roundWithAccuracy (s : Sign) (room : 52 ≤ m.log2 ∨ e ≤ -1074)
    (holds : Holds (.ofMantissaAndAccuracy m accuracy) v) :
    Rounds (signum s * (v * 2 ^ e)) (roundWithAccuracy .binary64 s m e accuracy) := by
  obtain ⟨em, shifted, held⟩ := shiftToTargetExponent_holds room holds
  have below := scaled_lt (e := e) holds
  have above := le_scaled room holds
  have whole : v * 2 ^ e / 2 ^ target m e * 2 ^ target m e = v * 2 ^ e :=
    div_mul_cancel₀ _ (zpow_ne_zero _ two_ne_zero)
  generalize v * 2 ^ e / 2 ^ target m e = w at held below above whole
  obtain ⟨bounded, normal⟩ := shifted_bounds held below above
  have least : -1074 ≤ target m e := by
    rw [target_eq]
    omega
  obtain ⟨regular, value⟩ := roundWithAccuracy_value s shifted bounded least normal
  refine ⟨regular, ?_⟩
  have power : (0 : Rat) < 2 ^ target m e := by positivity
  have distance : signum s * (em.roundedMantissa * 2 ^ target m e) - signum s * (v * 2 ^ e) =
      signum s * ((em.roundedMantissa - w) * 2 ^ target m e) := by
    rw [← whole]
    ring
  rw [value, distance, abs_signum_mul, slack_signum, abs_mul, abs_of_pos power, ← whole]
  refine le_trans ?_ (half_le_slack above)
  rw [zpow_sub_one₀ two_ne_zero, mul_comm _ (2 : Rat)⁻¹]
  exact mul_le_mul_of_nonneg_right (held.error.trans (by norm_num)) power.le

end Metrology.Double
