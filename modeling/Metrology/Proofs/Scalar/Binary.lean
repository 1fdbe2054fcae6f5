import Metrology.Proofs.Scalar.Double
import Metrology.Scalar.Rational

/-!
Doubles as binary fractions. A finite double other than zero is `± m · 2 ^ e` for one `Canonical` pair
of exponent at most 971. Packing keeps such a pair and turns a greater exponent into an infinity.
-/

namespace Metrology.Double
open Float.Model Float.Model.UnpackedFloat Scalar

variable {x y : Float} {s : Sign} {m : Nat} {e : Int}

/-! ### Canonical pairs -/

/-- At most 53 bits, and no fewer save at the least exponent. -/
structure Canonical (m : Nat) (e : Int) : Prop where
  mantissa_lt : m < 2 ^ 53
  least : -1074 ≤ e
  normal : 2 ^ 52 ≤ m ∨ e = -1074

theorem targetExponent_eq (m : Nat) (e : Int) :
    Format.binary64.targetExponent (totalExponent m e) = max (m.log2 + e - 52) (-1074) := by
  have bits : Format.binary64.mantissaBits = 53 := rfl
  have least : Format.binary64.minExponent = -1074 := rfl
  rw [Format.targetExponent, totalExponent, bits, least]
  omega

theorem canonical_iff (positive : 0 < m) :
    Canonical m e ↔ Format.binary64.targetExponent (totalExponent m e) = e := by
  have nonzero : m ≠ 0 := Nat.pos_iff_ne_zero.mp positive
  have small : m < 2 ^ 53 ↔ m.log2 < 53 := (Nat.log2_lt nonzero).symm
  have large : 2 ^ 52 ≤ m ↔ 52 ≤ m.log2 := (Nat.le_log2 nonzero).symm
  rw [targetExponent_eq]
  constructor
  · rintro ⟨lt, least, normal⟩
    rw [small] at lt
    rw [large] at normal
    omega
  · intro target
    exact ⟨small.mpr (by omega), by omega, by rw [large]; omega⟩

theorem canonical_unpack {b : BitVec Format.binary64.numBits} {positive : 0 < m}
    (h : UnpackedFloat.unpack .binary64 b = .finite s m e positive) : Canonical m e ∧ e ≤ 971 := by
  refine ⟨(canonical_iff positive).mpr (targetExponent_unpack h), ?_⟩
  have bias : ((Format.binary64.exponentBias : Nat) : Int) = 1023 := rfl
  have bits : ((Format.binary64.mantissaBitsWithoutImplicit : Nat) : Int) = 52 := rfl
  have size : (unpackExponent b).toNat < 2048 := (unpackExponent b).isLt
  unfold UnpackedFloat.unpack at h
  simp only [bias, bits] at h
  split_ifs at h with special nan subnormal zero
  · obtain ⟨-, -, rfl⟩ := UnpackedFloat.finite.inj h
    have field : (unpackExponent b).toNat = 0 := by rw [subnormal]; rfl
    omega
  · obtain ⟨-, -, rfl⟩ := UnpackedFloat.finite.inj h
    -- the field of all ones is kept for infinities and NaN
    have field : (unpackExponent b).toNat ≠ 2047 := fun ones => special (BitVec.eq_of_toNat_eq (by rw [ones]; rfl))
    omega

/-! ### Packing -/

theorem unpack_normal (s : Sign) {exponent : BitVec 11} (mantissa : BitVec 52) (some : exponent ≠ 0#11)
    (below : exponent ≠ -1#11) :
    UnpackedFloat.unpack .binary64 (packComponents .binary64 s exponent mantissa) =
      .finite s (2 ^ 52 + mantissa.toNat) (exponent.toNat - 1075) (by omega) := by
  have whole : (1#1 ++ mantissa).toNat = 2 ^ 52 + mantissa.toNat := by
    rw [BitVec.toNat_append, ← Nat.shiftLeft_add_eq_or_of_lt mantissa.isLt]
    rfl
  unfold UnpackedFloat.unpack
  simp only [unpackMantissa_packComponents, unpackExponent_packComponents, unpackSign_packComponents,
    Sign.ofBitVec_toBitVec, if_neg some, if_neg below, whole]
  rfl

theorem unpack_subnormal (s : Sign) {mantissa : BitVec 52} (some : mantissa ≠ 0#52) :
    UnpackedFloat.unpack .binary64 (packComponents .binary64 s 0#11 mantissa) =
      .finite s mantissa.toNat (-1074) (by simpa [BitVec.toNat_pos, BitVec.pos_iff_ne_zero] using some) := by
  unfold UnpackedFloat.unpack
  simp only [unpackMantissa_packComponents, unpackExponent_packComponents, unpackSign_packComponents,
    Sign.ofBitVec_toBitVec, dif_neg some]
  rfl

theorem pack_finite (s : Sign) (positive : 0 < m) :
    UnpackedFloat.pack .binary64 (.finite s m e positive) =
      if 2048 ≤ (e + 1023 + 52).toNat + 1 then UnpackedFloat.pack .binary64 (.infinity s)
      else if m.log2 + 1 = 53 then
        packComponents .binary64 s (BitVec.ofNat 11 (e + 1023 + 52).toNat) (BitVec.ofNat 52 m)
      else packComponents .binary64 s 0#11 (BitVec.ofNat 52 m) := rfl

/-- Packing loses nothing up to the greatest exponent. -/
theorem unpack_pack_finite (s : Sign) (canonical : Canonical m e) (fits : e ≤ 971) (positive : 0 < m) :
    (Float.Model.pack (.finite s m e positive)).unpack = .finite s m e positive := by
  obtain ⟨mantissa_lt, least, normal⟩ := canonical
  show UnpackedFloat.unpack .binary64 (UnpackedFloat.pack .binary64 (.finite s m e positive)) = _
  have room : ¬2048 ≤ (e + 1023 + 52).toNat + 1 := by omega
  by_cases full : 2 ^ 52 ≤ m
  · have leading : m.log2 + 1 = 53 := by
      have exact := (Nat.log2_eq_iff positive.ne').mpr ⟨full, mantissa_lt⟩
      omega
    have field : (BitVec.ofNat 11 (e + 1023 + 52).toNat).toNat = (e + 1023 + 52).toNat := by
      rw [BitVec.toNat_ofNat]
      omega
    have rest : (BitVec.ofNat 52 m).toNat = m - 2 ^ 52 := by
      rw [BitVec.toNat_ofNat]
      omega
    rw [pack_finite, if_neg room, if_pos leading, unpack_normal, UnpackedFloat.finite.injEq, field, rest]
    · exact ⟨rfl, by omega, by omega⟩
    · intro zero
      rw [zero] at field
      change 0 = _ at field
      omega
    · intro ones
      rw [ones] at field
      change 2047 = _ at field
      omega
  · have short : m < 2 ^ 52 := Nat.lt_of_not_le full
    obtain rfl : e = -1074 := normal.resolve_left full
    have leading : ¬m.log2 + 1 = 53 := by
      have shorter := (Nat.log2_lt positive.ne').mpr short
      omega
    have rest : (BitVec.ofNat 52 m).toNat = m := by
      rw [BitVec.toNat_ofNat, Nat.mod_eq_of_lt short]
    rw [pack_finite, if_neg room, if_neg leading, unpack_subnormal, UnpackedFloat.finite.injEq, rest]
    · exact ⟨rfl, rfl, rfl⟩
    · intro zero
      rw [zero] at rest
      change 0 = _ at rest
      omega

theorem unpack_pack_infinity (s : Sign) : (Float.Model.pack (.infinity s)).unpack = .infinity s := by
  cases s <;> rfl

theorem unpack_pack_zero (s : Sign) : (Float.Model.pack (.zero s)).unpack = .zero s := by
  cases s <;> rfl

/-- Beyond the greatest exponent there are only infinities. -/
theorem unpack_pack_large (s : Sign) (large : 971 < e) (positive : 0 < m) :
    (Float.Model.pack (.finite s m e positive)).unpack = .infinity s := by
  have full : 2048 ≤ (e + 1023 + 52).toNat + 1 := by omega
  show UnpackedFloat.unpack .binary64 (UnpackedFloat.pack .binary64 (.finite s m e positive)) = _
  rw [pack_finite, if_pos full]
  exact unpack_pack_infinity s

/-! ### Values -/

def signum : Sign → Rat
  | .negative => -1
  | .positive => 1

theorem abs_signum_mul (s : Sign) (v : Rat) : |signum s * v| = |v| := by
  cases s <;> simp [signum]

theorem signum_neg (s : Sign) : signum (-s) = -signum s := by
  cases s <;> decide +kernel

theorem signum_mul (s s' : Sign) : signum (s * s') = signum s * signum s' := by
  cases s <;> cases s' <;> decide +kernel

theorem signum_div (s s' : Sign) : signum (s / s') = signum s / signum s' := by
  cases s <;> cases s' <;> decide +kernel

/-- The value of an unpacked double; infinities and NaN count as zero. -/
def unpackedValue : UnpackedFloat → Rat
  | .finite s m e _ => signum s * (m * 2 ^ e)
  | _ => 0

theorem exactValue_eq (x : Float) : exactValue x = unpackedValue x.toModel.unpack := by
  unfold exactValue
  cases x.toModel.unpack with
  | notANumber => rfl
  | infinity s => rfl
  | zero s => rfl
  | finite s m e positive =>
    cases s
    · exact (neg_one_mul _).symm
    · exact (one_mul _).symm

theorem isFinite_eq (x : Float) : x.isFinite = x.toModel.unpack.isFinite :=
  rfl

/-- What a finite double unpacks to, were there no greatest exponent. -/
def Regular : UnpackedFloat → Prop
  | .zero _ => True
  | .finite _ m e _ => Canonical m e
  | _ => False

theorem regular_unpack (finite : x.isFinite = true) : Regular x.toModel.unpack := by
  rw [isFinite_eq] at finite
  cases shape : x.toModel.unpack with
  | notANumber => rw [shape] at finite; cases finite
  | infinity s => rw [shape] at finite; cases finite
  | zero s => trivial
  | finite s m e positive => exact (canonical_unpack shape).1

theorem value_lt (canonical : Canonical m e) : (m : Rat) * 2 ^ e < 2 ^ (e + 53) := by
  have mantissa : (m : Rat) < 2 ^ 53 := by exact_mod_cast canonical.mantissa_lt
  have power : (0 : Rat) < 2 ^ e := by positivity
  calc (m : Rat) * 2 ^ e < 2 ^ 53 * 2 ^ e := mul_lt_mul_of_pos_right mantissa power
    _ = 2 ^ (e + 53) := by rw [zpow_add₀ two_ne_zero, mul_comm]; rfl

theorem le_value (canonical : Canonical m e) (above : e ≠ -1074) : (2 : Rat) ^ (e + 52) ≤ m * 2 ^ e := by
  have mantissa : (2 : Rat) ^ 52 ≤ m := by exact_mod_cast canonical.normal.resolve_right above
  have power : (0 : Rat) < 2 ^ e := by positivity
  calc (2 : Rat) ^ (e + 52) = 2 ^ 52 * 2 ^ e := by rw [zpow_add₀ two_ne_zero, mul_comm]; rfl
    _ ≤ m * 2 ^ e := mul_le_mul_of_nonneg_right mantissa power.le

/-- Packing a regular value keeps it or makes it infinite, and that only from `2 ^ 1024` on. -/
theorem exactValue_pack {u : UnpackedFloat} (regular : Regular u) :
    ((Float.ofModel (Float.Model.pack u)).isFinite = true →
        exactValue (Float.ofModel (Float.Model.pack u)) = unpackedValue u) ∧
      (|unpackedValue u| < 2 ^ (1024 : Int) → (Float.ofModel (Float.Model.pack u)).isFinite = true) := by
  rw [isFinite_eq, exactValue_eq, show (Float.ofModel (Float.Model.pack u)).toModel = Float.Model.pack u from rfl]
  cases u with
  | notANumber => cases regular
  | infinity s => cases regular
  | zero s =>
    rw [unpack_pack_zero]
    exact ⟨fun _ => rfl, fun _ => rfl⟩
  | finite s m e positive =>
    have canonical : Canonical m e := regular
    by_cases fits : e ≤ 971
    · rw [unpack_pack_finite s canonical fits positive]
      exact ⟨fun _ => rfl, fun _ => rfl⟩
    · have beyond : (2 : Rat) ^ (1024 : Int) ≤ 2 ^ (e + 52) := zpow_le_zpow_right₀ one_le_two (by omega)
      have magnitude := le_value canonical (by omega)
      rw [unpack_pack_large s (Int.not_le.mp fits) positive, unpackedValue, abs_signum_mul, abs_of_pos (by positivity)]
      exact ⟨nofun, fun small => absurd small (not_lt.mpr (beyond.trans magnitude))⟩

/-- Every finite double is a multiple of the least positive one. -/
theorem exists_multiple (finite : x.isFinite = true) : ∃ n : Int, exactValue x = n * 2 ^ (-1074 : Int) := by
  have regular := regular_unpack finite
  rw [exactValue_eq]
  cases shape : x.toModel.unpack with
  | notANumber => rw [shape] at regular; cases regular
  | infinity s => rw [shape] at regular; cases regular
  | zero s => exact ⟨0, by rw [Int.cast_zero, zero_mul]; rfl⟩
  | finite s m e positive =>
    have least := (canonical_unpack shape).1.least
    obtain ⟨k, rfl⟩ : ∃ k : Nat, e = k + -1074 := ⟨(e + 1074).toNat, by omega⟩
    refine ⟨s.apply (m * 2 ^ k), ?_⟩
    rw [unpackedValue, zpow_add₀ two_ne_zero, zpow_natCast]
    generalize (2 : Rat) ^ (-1074 : Int) = least
    cases s <;> simp only [Sign.apply, signum] <;> push_cast <;> ring

/-! ### Comparison -/

theorem compare_canonical {m' : Nat} {e' : Int} (left : Canonical m e) (right : Canonical m' e') :
    (compare e e').then (compare m m') = compare ((m : Rat) * 2 ^ e) (m' * 2 ^ e') := by
  have ordered : ∀ {m m' : Nat} {e e' : Int}, Canonical m e → Canonical m' e' → e < e' →
      (m : Rat) * 2 ^ e < m' * 2 ^ e' := by
    intro m m' e e' left right lt
    have least := left.least
    calc (m : Rat) * 2 ^ e < 2 ^ (e + 53) := value_lt left
      _ ≤ 2 ^ (e' + 52) := zpow_le_zpow_right₀ one_le_two (by omega)
      _ ≤ m' * 2 ^ e' := le_value right (by omega)
  rcases lt_trichotomy e e' with lt | rfl | gt
  · rw [compare_lt_iff_lt.mpr lt, compare_lt_iff_lt.mpr (ordered left right lt)]
    rfl
  · have power : (0 : Rat) < 2 ^ e := by positivity
    rw [compare_eq_iff_eq.mpr (rfl : e = e)]
    rcases lt_trichotomy m m' with lt | rfl | gt
    · rw [compare_lt_iff_lt.mpr lt, compare_lt_iff_lt.mpr (mul_lt_mul_of_pos_right (by exact_mod_cast lt) power)]
      rfl
    · rw [compare_eq_iff_eq.mpr rfl, compare_eq_iff_eq.mpr rfl]
      rfl
    · rw [compare_gt_iff_gt.mpr gt, compare_gt_iff_gt.mpr (mul_lt_mul_of_pos_right (by exact_mod_cast gt) power)]
      rfl
  · rw [compare_gt_iff_gt.mpr gt, compare_gt_iff_gt.mpr (ordered right left gt)]
    rfl

theorem compare_neg (v w : Rat) : compare (-v) (-w) = (compare v w).swap := by
  rcases lt_trichotomy v w with lt | rfl | gt
  · rw [compare_lt_iff_lt.mpr lt, compare_gt_iff_gt.mpr (neg_lt_neg lt)]
    rfl
  · rw [compare_eq_iff_eq.mpr rfl, compare_eq_iff_eq.mpr rfl]
    rfl
  · rw [compare_gt_iff_gt.mpr gt, compare_lt_iff_lt.mpr (neg_lt_neg gt)]
    rfl

theorem unpackedValue_positive (e : Int) (positive : 0 < m) :
    0 < unpackedValue (.finite .positive m e positive) := by
  have mantissa : (0 : Rat) < m := by exact_mod_cast positive
  rw [unpackedValue, signum, one_mul]
  positivity

theorem unpackedValue_negative (e : Int) (positive : 0 < m) :
    unpackedValue (.finite .negative m e positive) < 0 := by
  have mantissa : (0 : Rat) < m := by exact_mod_cast positive
  rw [unpackedValue, signum, neg_one_mul, neg_lt_zero]
  positivity

theorem compare_regular {u v : UnpackedFloat} (left : Regular u) (right : Regular v) :
    u.compare v = some (compare (unpackedValue u) (unpackedValue v)) := by
  cases u with
  | notANumber => cases left
  | infinity s => cases left
  | zero s =>
    cases v with
    | notANumber => cases right
    | infinity s => cases right
    | zero s' => exact congrArg some (compare_eq_iff_eq.mpr rfl).symm
    | finite s' m e positive =>
      cases s'
      · exact congrArg some (compare_gt_iff_gt.mpr (unpackedValue_negative e positive)).symm
      · exact congrArg some (compare_lt_iff_lt.mpr (unpackedValue_positive e positive)).symm
  | finite s m e positive =>
    cases v with
    | notANumber => cases right
    | infinity s => cases right
    | zero s' =>
      cases s
      · exact congrArg some (compare_lt_iff_lt.mpr (unpackedValue_negative e positive)).symm
      · exact congrArg some (compare_gt_iff_gt.mpr (unpackedValue_positive e positive)).symm
    | finite s' m' e' positive' =>
      have both := compare_canonical left right
      cases s <;> cases s'
      · show some ((compare e e').then (compare m m')).swap = _
        rw [both, ← compare_neg, unpackedValue, unpackedValue, signum, neg_one_mul, neg_one_mul]
      · have apart := (unpackedValue_negative e positive).trans (unpackedValue_positive e' positive')
        exact congrArg some (compare_lt_iff_lt.mpr apart).symm
      · have apart := (unpackedValue_negative e' positive').trans (unpackedValue_positive e positive)
        exact congrArg some (compare_gt_iff_gt.mpr apart).symm
      · show some ((compare e e').then (compare m m')) = _
        rw [both, unpackedValue, unpackedValue, signum, one_mul, one_mul]

theorem le_iff (hx : x.isFinite = true) (hy : y.isFinite = true) : x ≤ y ↔ exactValue x ≤ exactValue y := by
  show decide (x.toModel ≤ y.toModel) = true ↔ _
  rw [decide_eq_true_iff]
  show (x.toModel.unpack.compare y.toModel.unpack).any (·.isLE) = true ↔ _
  rw [compare_regular (regular_unpack hx) (regular_unpack hy), ← exactValue_eq, ← exactValue_eq, Option.any_some,
    ← Ordering.ne_gt_iff_isLE, compare_gt_iff_gt, not_lt]

theorem lt_iff (hx : x.isFinite = true) (hy : y.isFinite = true) : x < y ↔ exactValue x < exactValue y := by
  show decide (x.toModel < y.toModel) = true ↔ _
  rw [decide_eq_true_iff]
  show (x.toModel.unpack.compare y.toModel.unpack == some .lt) = true ↔ _
  rw [compare_regular (regular_unpack hx) (regular_unpack hy), ← exactValue_eq, ← exactValue_eq, beq_iff_eq,
    Option.some_inj, compare_lt_iff_lt]

/-! ### Magnitude -/

theorem unpack_abs (x : Float) : x.abs.toModel.unpack = x.toModel.unpack.abs := by
  show (Float.Model.pack x.toModel.unpack.abs).unpack = _
  cases shape : x.toModel.unpack with
  | notANumber => rfl
  | infinity s => exact unpack_pack_infinity .positive
  | zero s => exact unpack_pack_zero .positive
  | finite s m e positive =>
    obtain ⟨canonical, fits⟩ := canonical_unpack shape
    exact unpack_pack_finite .positive canonical fits positive

theorem isFinite_abs (x : Float) : x.abs.isFinite = x.isFinite := by
  rw [isFinite_eq, isFinite_eq, unpack_abs]
  cases x.toModel.unpack <;> rfl

theorem exactValue_abs (x : Float) : exactValue x.abs = |exactValue x| := by
  rw [exactValue_eq, exactValue_eq, unpack_abs]
  cases x.toModel.unpack with
  | notANumber => exact abs_zero.symm
  | infinity s => exact abs_zero.symm
  | zero s => exact abs_zero.symm
  | finite s m e positive =>
    have magnitude : (0 : Rat) ≤ m * 2 ^ e := by positivity
    show signum .positive * ((m : Rat) * 2 ^ e) = |signum s * (m * 2 ^ e)|
    rw [abs_signum_mul, abs_of_nonneg magnitude]
    exact one_mul _

end Metrology.Double
