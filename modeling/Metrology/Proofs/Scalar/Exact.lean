import Metrology.Proofs.Scalar.Operations

/-!
Operations whose exact result is a double give that double. Main statement: `ofScientific_exact`, for a
decimal that is worth a double.
-/

namespace Metrology.Double
open Float.Model Float.Model.UnpackedFloat Scalar

variable {x y z : Float} {s : Sign} {m n M : Nat} {e E : Int} {em : ExtendedMantissa} {accuracy : Accuracy} {v : Rat}

/-! ### Rounding -/

/-- The exponent that rounding aims at is settled by the value. -/
theorem target_of_value (room : 52 ≤ m.log2 ∨ e ≤ -1074) (holds : Holds (.ofMantissaAndAccuracy m accuracy) v)
    (canonical : Canonical M E) (value : v * 2 ^ e = M * 2 ^ E) : target m e = E := by
  have below := scaled_lt (e := e) holds
  have above := le_scaled room holds
  have power : (0 : Rat) < 2 ^ target m e := by positivity
  rw [value, div_lt_iff₀ power, ← zpow_natCast, ← zpow_add₀ two_ne_zero] at below
  rw [value, le_div_iff₀ power, ← zpow_natCast, ← zpow_add₀ two_ne_zero] at above
  have least : -1074 ≤ target m e := by
    rw [target_eq]
    omega
  have down : target m e ≤ E := by
    by_cases bottom : target m e = -1074
    · have := canonical.least
      omega
    · have room := (above bottom).trans_lt (value_lt canonical)
      rw [zpow_lt_zpow_iff_right₀ one_lt_two] at room
      push_cast at room
      omega
  have up : E ≤ target m e := by
    by_cases bottom : E = -1074
    · omega
    · have room := (le_value canonical bottom).trans_lt below
      rw [zpow_lt_zpow_iff_right₀ one_lt_two] at room
      push_cast at room
      omega
  omega

theorem eq_of_holds (holds : Holds em (M : Rat)) : em = ⟨M, false, false⟩ := by
  obtain ⟨k, round, sticky⟩ := em
  -- A bit that is set puts a fraction on `k`.
  cases round <;> cases sticky <;> simp only [Holds] at holds
  · obtain rfl : M = k := by exact_mod_cast holds
    rfl
  · have lower : k < M := by exact_mod_cast holds.1
    have upper : (M : Rat) < (k + 1 : Nat) := by
      push_cast
      linarith
    have upper : M < k + 1 := by exact_mod_cast upper
    omega
  · have twice : (2 * M : Rat) = 2 * k + 1 := by linarith
    have twice : 2 * M = 2 * k + 1 := by exact_mod_cast twice
    omega
  · have lower : (k : Rat) < M := by linarith
    have lower : k < M := by exact_mod_cast lower
    have upper : M < k + 1 := by exact_mod_cast holds.2
    omega

theorem roundWithAccuracy_exact (s : Sign) (room : 52 ≤ m.log2 ∨ e ≤ -1074)
    (holds : Holds (.ofMantissaAndAccuracy m accuracy) v) (canonical : Canonical M E) (positive : 0 < M)
    (value : v * 2 ^ e = M * 2 ^ E) : roundWithAccuracy .binary64 s m e accuracy = .finite s M E positive := by
  obtain ⟨em, shifted, held⟩ := shiftToTargetExponent_holds room holds
  have power : (2 : Rat) ^ E ≠ 0 := zpow_ne_zero E two_ne_zero
  rw [target_of_value room holds canonical value] at shifted held
  rw [value, mul_div_cancel_right₀ _ power] at held
  obtain rfl := eq_of_holds held
  have rounded : (⟨M, false, false⟩ : ExtendedMantissa).roundedMantissa = M := rfl
  have second := shiftToTargetExponent_zeros positive ((canonical_iff positive).mp canonical) 0
  rw [pow_zero, Nat.mul_one, Int.natCast_zero, sub_zero] at second
  simp only [roundWithAccuracy, shifted, rounded, second, dif_neg (Nat.pos_iff_ne_zero.mp positive)]

/-! ### Doubles -/

theorem exists_unpack (positive : 0 < exactValue x) :
    ∃ m e p, x.toModel.unpack = .finite .positive m e p ∧ Canonical m e ∧ e ≤ 971 ∧ exactValue x = m * 2 ^ e := by
  rw [exactValue_eq] at positive ⊢
  cases shape : x.toModel.unpack with
  | notANumber => simp [shape, unpackedValue] at positive
  | infinity s => simp [shape, unpackedValue] at positive
  | zero s => simp [shape, unpackedValue] at positive
  | finite s m e p =>
    obtain ⟨canonical, fits⟩ := canonical_unpack shape
    cases s with
    | positive => exact ⟨m, e, p, rfl, canonical, fits, one_mul _⟩
    | negative =>
      have magnitude : (0 : Rat) < m * 2 ^ e := by positivity
      simp only [shape, unpackedValue, signum] at positive
      linarith

theorem ofModel_pack {u : UnpackedFloat} (h : x.toModel.unpack = u) : Float.ofModel (Float.Model.pack u) = x := by
  rw [← h, pack_unpack_model]

theorem mul_exact (hx : 0 < exactValue x) (hy : 0 < exactValue y) (product : exactValue x * exactValue y = exactValue z) :
    x * y = z := by
  obtain ⟨m, e, p, left, canonical, -, valueX⟩ := exists_unpack hx
  obtain ⟨m', e', p', right, canonical', -, valueY⟩ := exists_unpack hy
  obtain ⟨M, E, P, result, canonicalZ, -, valueZ⟩ := exists_unpack (product ▸ mul_pos hx hy)
  have value : ((m * m' : Nat) : Rat) * 2 ^ (e + e') = M * 2 ^ E := by
    rw [← valueZ, ← product, valueX, valueY, zpow_add₀ two_ne_zero]
    push_cast
    ring
  have holds : Holds (.ofMantissaAndAccuracy (m * m') .exact) (m * m' : Nat) := rfl
  have rounded := roundWithAccuracy_exact .positive (mul_room canonical canonical' p p') holds canonicalZ P value
  show Float.ofModel (x.toModel.mul y.toModel) = z
  rw [← ofModel_pack result, ← rounded, Float.Model.mul, left, right]
  rfl

theorem div_exact (hx : 0 < exactValue x) (hy : 0 < exactValue y) (quotient : exactValue x / exactValue y = exactValue z) :
    x / y = z := by
  obtain ⟨m, e, p, left, -, -, valueX⟩ := exists_unpack hx
  obtain ⟨m', e', p', right, -, -, valueY⟩ := exists_unpack hy
  obtain ⟨M, E, P, result, canonicalZ, -, valueZ⟩ := exists_unpack (quotient ▸ div_pos hx hy)
  obtain ⟨q, t, accuracy, v, core, room, holds, value⟩ := divCore_spec e e' p p'
  rw [← valueX, ← valueY, quotient, valueZ] at value
  have rounded := roundWithAccuracy_exact .positive room holds canonicalZ P value
  show Float.ofModel (x.toModel.div y.toModel) = z
  rw [← ofModel_pack result, ← rounded, Float.Model.div, left, right]
  simp only [UnpackedFloat.div, core]
  rfl

/-! ### Integers and powers of ten -/

theorem round_small (positive : 0 < n) (small : n < 2 ^ 53) :
    ∃ M E p, UnpackedFloat.round .binary64 .positive n 0 = .finite .positive M E p ∧ Canonical M E ∧ E ≤ 971 ∧
      (M : Rat) * 2 ^ E = n := by
  obtain ⟨k, bits⟩ : ∃ k, n.log2 + k = 52 := by
    have bound := (Nat.log2_lt positive.ne').mpr small
    exact ⟨52 - n.log2, by omega⟩
  have aim : target n 0 = -(k : Int) := by
    rw [target_eq]
    omega
  have leading : (n * 2 ^ k).log2 = 52 := by rw [log2_mul_two_pow positive, bits]
  have filled : 0 < n * 2 ^ k := Nat.mul_pos positive (Nat.pow_pos two_pos)
  have canonical : Canonical (n * 2 ^ k) (-k) := by
    have size := (Nat.log2_eq_iff filled.ne').mp leading
    exact ⟨size.2, by omega, .inl size.1⟩
  refine ⟨n * 2 ^ k, -k, filled, ?_, canonical, by omega, ?_⟩
  · have shifted : decreaseExponent n 0 (target n 0) = (n * 2 ^ k, -(k : Int)) := by
      rw [aim, decreaseExponent, Nat.shiftLeft_eq]
      simp
    have rounded := roundWithAccuracy_zeros (s := .positive) filled ((canonical_iff filled).mp canonical) 0
    rw [pow_zero, Nat.mul_one, Int.natCast_zero, sub_zero] at rounded
    rw [← rounded]
    show (match decreaseExponent n 0 (target n 0) with | (m, e) => roundWithAccuracy .binary64 .positive m e .exact) = _
    rw [shifted]
  · have power : (2 : Rat) ^ k ≠ 0 := pow_ne_zero k two_ne_zero
    rw [zpow_neg, zpow_natCast]
    push_cast
    field_simp

theorem ofNat_eq_round (positive : 0 < n) :
    UnpackedFloat.ofNat .binary64 n = UnpackedFloat.round .binary64 .positive n 0 := by
  rw [UnpackedFloat.ofNat, UnpackedFloat.ofInt, UnpackedFloat.normalize, Int.compare_eq_gt.mpr (by omega), Int.toNat_natCast]

theorem exactValue_toFloat (small : n < 2 ^ 53) : exactValue n.toUInt64.toFloat = n := by
  have word : n.toUInt64.toNat = n := by
    simp
    omega
  show exactValue (Float.ofModel (Float.Model.pack (UnpackedFloat.ofNat .binary64 n.toUInt64.toNat))) = n
  rw [word, exactValue_eq]
  rcases Nat.eq_zero_or_pos n with rfl | positive
  · rfl
  · obtain ⟨M, E, p, rounded, canonical, fits, value⟩ := round_small positive small
    rw [ofNat_eq_round positive, rounded]
    show unpackedValue (Float.Model.pack (.finite .positive M E p)).unpack = n
    rw [unpack_pack_finite .positive canonical fits p, unpackedValue, value]
    exact one_mul _

theorem exactValue_powerOfTen (i : Fin Float.exactlyRepresentablePowersOfTen.size) :
    exactValue Float.exactlyRepresentablePowersOfTen[i] = 10 ^ i.val := by
  revert i
  decide +kernel

/-! ### Decimals -/

theorem exactValue_bounds (positive : 0 < exactValue x) :
    (2 : Rat) ^ (-1074 : Int) ≤ exactValue x ∧ exactValue x < 2 ^ (1024 : Int) := by
  obtain ⟨m, e, p, -, canonical, fits, value⟩ := exists_unpack positive
  rw [value]
  constructor
  · have mantissa : (1 : Rat) ≤ m := by exact_mod_cast p
    calc (2 : Rat) ^ (-1074 : Int) ≤ 2 ^ e := zpow_le_zpow_right₀ one_le_two canonical.least
      _ ≤ m * 2 ^ e := le_mul_of_one_le_left (by positivity) mantissa
  · calc (m : Rat) * 2 ^ e < 2 ^ (e + 53) := value_lt canonical
      _ ≤ 2 ^ (1024 : Int) := zpow_le_zpow_right₀ one_le_two (by omega)

theorem decimal_range (positive : 0 < exactValue x) (value : (n : Rat) * 10 ^ e = exactValue x) :
    0 < n ∧ -(2048 + (n.log2 : Int)) ≤ e ∧ e ≤ 2048 := by
  obtain ⟨least, greatest⟩ := exactValue_bounds positive
  rw [← value] at positive least greatest
  have some : 0 < n := by
    rw [Nat.pos_iff_ne_zero]
    rintro rfl
    simp at positive
  have one : (1 : Rat) ≤ n := by exact_mod_cast some
  refine ⟨some, ?_, ?_⟩
  · by_contra small
    have power : (10 : Rat) ^ e ≤ 2 ^ e := by
      obtain ⟨k, rfl⟩ : ∃ k : Nat, e = -k := ⟨(-e).toNat, by omega⟩
      rw [zpow_neg, zpow_neg, zpow_natCast, zpow_natCast]
      exact inv_anti₀ (by positivity) (pow_le_pow_left₀ two_pos.le (by norm_num) k)
    have below : (n : Rat) < 2 ^ ((n.log2 : Int) + 1) := by exact_mod_cast Nat.lt_log2_self (n := n)
    have upper : (n : Rat) * 10 ^ e < 2 ^ ((n.log2 : Int) + 1 + e) := by
      rw [zpow_add₀ two_ne_zero]
      exact mul_lt_mul below power (by positivity) (by positivity)
    have order := least.trans_lt upper
    rw [zpow_lt_zpow_iff_right₀ one_lt_two] at order
    omega
  · by_contra large
    have power : (2 : Rat) ^ e ≤ 10 ^ e := by
      obtain ⟨k, rfl⟩ : ∃ k : Nat, e = k := ⟨e.toNat, by omega⟩
      rw [zpow_natCast, zpow_natCast]
      exact pow_le_pow_left₀ two_pos.le (by norm_num) k
    have lower : (2 : Rat) ^ e ≤ n * 10 ^ e := power.trans (le_mul_of_one_le_left (by positivity) one)
    have order := lower.trans_lt greatest
    rw [zpow_lt_zpow_iff_right₀ one_lt_two] at order
    omega

/-- The general path, by one product or one quotient of big integers. -/
theorem ofScientific_general (positive : 0 < exactValue x) (value : (n : Rat) * 10 ^ e = exactValue x) :
    Float.ofModel (Float.Model.ofScientific n e) = x := by
  obtain ⟨some, least, greatest⟩ := decimal_range positive value
  obtain ⟨M, E, P, result, canonical, -, valueX⟩ := exists_unpack positive
  have bits : (Format.binary64.exponentBits : Nat) = 11 := rfl
  have mantissa : (Format.binary64.mantissaBits : Nat) = 53 := rfl
  have low : ¬e < -(2 ^ Format.binary64.exponentBits + (n.log2 : Int)) := by
    rw [bits]
    omega
  have high : ¬e > 2 ^ Format.binary64.exponentBits := by
    rw [bits]
    omega
  rw [Float.Model.ofScientific, ← ofModel_pack result]
  congr 2
  rw [UnpackedFloat.ofScientific, dif_neg some.ne', if_neg high, if_neg low]
  by_cases whole : 0 ≤ e
  · rw [if_pos whole]
    obtain ⟨k, rfl⟩ : ∃ k : Nat, e = k := ⟨e.toNat, by omega⟩
    rw [zpow_natCast] at value
    have product : 2 ^ 53 ≤ n <<< 53 * 10 ^ k := by
      rw [Nat.shiftLeft_eq, Nat.mul_comm n, Nat.mul_assoc]
      exact Nat.le_mul_of_pos_right _ (Nat.mul_pos some (by positivity))
    have room : 52 ≤ (n <<< 53 * 10 ^ k).log2 := by
      rw [Nat.le_log2 (by omega)]
      omega
    have same : ((n <<< 53 * 10 ^ k : Nat) : Rat) * 2 ^ (-53 + 0 : Int) = M * 2 ^ E := by
      rw [← valueX, ← value, Nat.shiftLeft_eq]
      push_cast
      norm_num
      ring
    have holds : Holds (.ofMantissaAndAccuracy (n <<< 53 * 10 ^ k) .exact) (n <<< 53 * 10 ^ k : Nat) := rfl
    exact roundWithAccuracy_exact .positive (.inl room) holds canonical P same
  · rw [if_neg whole]
    obtain ⟨k, rfl⟩ : ∃ k : Nat, e = -k := ⟨(-e).toNat, by omega⟩
    obtain ⟨q, t, accuracy, v, core, room, holds, quotient⟩ := divCore_spec 0 0 some (Nat.pow_pos (n := k) (by decide : 0 < 10))
    have same : v * 2 ^ t = M * 2 ^ E := by
      rw [← valueX, ← value, quotient, zpow_neg, zpow_natCast]
      simp [div_eq_mul_inv]
    have power : (-(-(k : Int))).toNat = k := by omega
    simp only [UnpackedFloat.div, power, core]
    exact roundWithAccuracy_exact .positive room holds canonical P same

theorem ofScientific_exact (positive : 0 < exactValue x) (value : (n : Rat) * 10 ^ e = exactValue x) :
    Float.ofScientific n (decide (e < 0)) e.natAbs = x := by
  unfold Float.ofScientific
  split
  · -- The digits and the power of ten are doubles, so that one operation is enough.
    rename_i small
    have inside : e.natAbs < Float.exactlyRepresentablePowersOfTen.size := Nat.lt_succ_of_le small.2
    have power : exactValue (Float.exactlyRepresentablePowersOfTen[e.natAbs]) = 10 ^ e.natAbs :=
      exactValue_powerOfTen ⟨e.natAbs, inside⟩
    have digits := exactValue_toFloat small.1
    have some : (0 : Rat) < n := by exact_mod_cast (decimal_range positive value).1
    have ten : (0 : Rat) < 10 ^ e.natAbs := by positivity
    rw [← digits] at some
    rw [← power] at ten
    by_cases negative : e < 0
    · simp only [decide_eq_true negative, if_true]
      refine div_exact some ten ?_
      rw [digits, power, ← value, div_eq_mul_inv, ← zpow_natCast, ← zpow_neg]
      congr 2
      omega
    · simp only [decide_eq_false negative]
      refine mul_exact some ten ?_
      rw [digits, power, ← value, ← zpow_natCast]
      congr 2
      omega
  · have exponent : (if decide (e < 0) = true then Int.negOfNat e.natAbs else Int.ofNat e.natAbs) = e := by
      split
      · rename_i negative
        rw [decide_eq_true_iff] at negative
        rw [Int.negOfNat_eq, Int.ofNat_eq_natCast]
        omega
      · rename_i whole
        rw [decide_eq_true_iff] at whole
        rw [Int.ofNat_eq_natCast]
        omega
    dsimp only
    rw [exponent]
    exact ofScientific_general positive value

end Metrology.Double
