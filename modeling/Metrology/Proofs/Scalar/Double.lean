import Mathlib
import Metrology.Scalar

/-!
Signs of doubles. The sign of a double is a field of its own and rounding hands it through, so a
negation passes through products and quotients exactly (`neg_mul`, `neg_div`). Products commute, with
one as neutral, and a finite double and its negation sum to zero.
-/

namespace Metrology.Double
open Float.Model Float.Model.UnpackedFloat

/-! ### Packing -/

theorem pack_unpack_model (x : Float.Model) : Float.Model.pack x.unpack = x := by
  obtain ⟨bits, valid⟩ := x
  have same : UnpackedFloat.pack .binary64 (UnpackedFloat.unpack .binary64 bits.toBitVec) = bits.toBitVec :=
    pack_unpack_of_valid valid
  simp only [Float.Model.pack, Float.Model.unpack, same]

theorem unpack_packComponents_neg (s : Sign) (exponent : BitVec 11) (mantissa : BitVec 52) :
    UnpackedFloat.unpack .binary64 (packComponents .binary64 (-s) exponent mantissa) =
      (UnpackedFloat.unpack .binary64 (packComponents .binary64 s exponent mantissa)).neg := by
  unfold UnpackedFloat.unpack
  simp only [unpackMantissa_packComponents, unpackExponent_packComponents, unpackSign_packComponents,
    Sign.ofBitVec_toBitVec]
  split_ifs <;> rfl

/-- Packing decides on exponent and mantissa without looking at the sign. -/
theorem unpack_pack_neg (u : UnpackedFloat) :
    UnpackedFloat.unpack .binary64 (UnpackedFloat.pack .binary64 u.neg) =
      (UnpackedFloat.unpack .binary64 (UnpackedFloat.pack .binary64 u)).neg := by
  cases u with
  | notANumber =>
    show UnpackedFloat.unpack .binary64 (packedNaN .binary64) =
      (UnpackedFloat.unpack .binary64 (packedNaN .binary64)).neg
    rw [unpack_packedNaN]
    rfl
  | infinity s => exact unpack_packComponents_neg s _ _
  | zero s => exact unpack_packComponents_neg s _ _
  | finite s m e positive =>
    show UnpackedFloat.unpack .binary64 (UnpackedFloat.pack .binary64 (.finite (-s) m e positive)) = _
    simp only [UnpackedFloat.pack]
    split_ifs
    · exact unpack_packComponents_neg s _ _
    · exact unpack_packComponents_neg s _ _
    · exact unpack_packComponents_neg s _ _

theorem neg_pack (u : UnpackedFloat) : (Float.Model.pack u).neg = Float.Model.pack u.neg := by
  have flipped : (Float.Model.pack u.neg).unpack = (Float.Model.pack u).unpack.neg := unpack_pack_neg u
  rw [Float.Model.neg, ← flipped, pack_unpack_model]

theorem unpack_neg (x : Float.Model) : x.neg.unpack = x.unpack.neg := by
  have flipped : (Float.Model.pack x.unpack.neg).unpack = (Float.Model.pack x.unpack).unpack.neg :=
    unpack_pack_neg x.unpack
  rw [Float.Model.neg, flipped, pack_unpack_model]

/-! ### Products and quotients -/

theorem sign_neg_mul (s s' : Sign) : -s * s' = -(s * s') := by
  cases s <;> cases s' <;> rfl

theorem sign_neg_div (s s' : Sign) : -s / s' = -(s / s') := by
  cases s <;> cases s' <;> rfl

theorem roundWithAccuracy_neg (format : Format) (s : Sign) (m : Nat) (e : Int) (accuracy : Accuracy) :
    roundWithAccuracy format (-s) m e accuracy = (roundWithAccuracy format s m e accuracy).neg := by
  simp only [roundWithAccuracy]
  split_ifs <;> rfl

theorem unpacked_neg_mul (u v : UnpackedFloat) :
    UnpackedFloat.mul .binary64 u.neg v = (UnpackedFloat.mul .binary64 u v).neg := by
  cases u <;> cases v <;>
    simp only [UnpackedFloat.neg, UnpackedFloat.mul, sign_neg_mul, roundWithAccuracy_neg]

theorem unpacked_neg_div (u v : UnpackedFloat) :
    UnpackedFloat.div .binary64 u.neg v = (UnpackedFloat.div .binary64 u v).neg := by
  cases u <;> cases v <;>
    simp only [UnpackedFloat.neg, UnpackedFloat.div, sign_neg_div, roundWithAccuracy_neg]

theorem neg_mul (x y : Float) : -x * y = -(x * y) := by
  show Float.ofModel (x.toModel.neg.mul y.toModel) = Float.ofModel (x.toModel.mul y.toModel).neg
  rw [Float.Model.mul, Float.Model.mul, unpack_neg, unpacked_neg_mul, neg_pack]

theorem neg_div (x y : Float) : -x / y = -(x / y) := by
  show Float.ofModel (x.toModel.neg.div y.toModel) = Float.ofModel (x.toModel.div y.toModel).neg
  rw [Float.Model.div, Float.Model.div, unpack_neg, unpacked_neg_div, neg_pack]

theorem sign_mul_comm (s s' : Sign) : s * s' = s' * s := by
  cases s <;> cases s' <;> rfl

theorem unpacked_mul_comm (u v : UnpackedFloat) :
    UnpackedFloat.mul .binary64 u v = UnpackedFloat.mul .binary64 v u := by
  cases u with
  | finite s m e positive =>
    cases v with
    | finite s' m' e' positive' =>
      simp only [UnpackedFloat.mul, sign_mul_comm s s', Nat.mul_comm m m', Int.add_comm e e']
    | _ => simp only [UnpackedFloat.mul, sign_mul_comm]
  | _ => cases v <;> simp only [UnpackedFloat.mul, sign_mul_comm]

protected theorem mul_comm (x y : Float) : x * y = y * x := by
  show Float.ofModel (x.toModel.mul y.toModel) = Float.ofModel (y.toModel.mul x.toModel)
  rw [Float.Model.mul, Float.Model.mul, unpacked_mul_comm]

/-! ### Sums -/

theorem apply_add_neg (s : Sign) (n : Int) : s.apply n + (-s).apply n = 0 := by
  cases s
  · exact neg_add_cancel n
  · exact add_neg_cancel n

theorem unpacked_add_neg {u : UnpackedFloat} (finite : u.isFinite = true) :
    UnpackedFloat.add .binary64 u u.neg = .zero .positive := by
  cases u with
  | notANumber => cases finite
  | infinity s => cases finite
  | zero s => cases s <;> rfl
  | finite s m e positive =>
    simp only [UnpackedFloat.neg, UnpackedFloat.add, apply_add_neg]
    rfl

/-- A finite double and its negation sum to positive zero. -/
theorem add_neg_self {x : Float} (finite : x.isFinite = true) : x + -x = 0 := by
  have zero : (0 : Float) = Float.ofModel (Float.Model.pack (.zero .positive)) := by decide +kernel
  show Float.ofModel (x.toModel.add x.toModel.neg) = 0
  rw [Float.Model.add, unpack_neg, unpacked_add_neg finite, zero]

/-! ### One -/

/-- Zero bits fall off a mantissa without a trace. -/
theorem shiftRight_zeros (m n : Nat) :
    (⟨m * 2 ^ n, false, false⟩ : ExtendedMantissa) >>> n = ⟨m, false, false⟩ := by
  induction n generalizing m with
  | zero =>
    rw [pow_zero, Nat.mul_one]
    rfl
  | succ n ih =>
    have shifted := ih (m * 2)
    rw [Nat.mul_assoc, ← pow_succ'] at shifted
    show ((⟨m * 2 ^ (n + 1), false, false⟩ : ExtendedMantissa) >>> n).shiftRightOne = _
    rw [shifted]
    simp [ExtendedMantissa.shiftRightOne]

theorem log2_mul_two_pow {m : Nat} (positive : 0 < m) (n : Nat) : (m * 2 ^ n).log2 = m.log2 + n := by
  have nonzero : m ≠ 0 := Nat.pos_iff_ne_zero.mp positive
  obtain ⟨low, high⟩ := (Nat.log2_eq_iff nonzero).mp rfl
  rw [Nat.log2_eq_iff (Nat.mul_ne_zero nonzero (Nat.pow_pos two_pos).ne')]
  constructor
  · rw [Nat.pow_add]
    exact Nat.mul_le_mul_right _ low
  · rw [Nat.add_right_comm, Nat.pow_add]
    exact Nat.mul_lt_mul_of_pos_right high (Nat.pow_pos two_pos)

variable {s : Sign} {m : Nat} {e : Int}

/-- The exponent of an unpacked double is the one that rounding aims at. -/
theorem targetExponent_unpack {b : BitVec Format.binary64.numBits} {positive : 0 < m}
    (h : UnpackedFloat.unpack .binary64 b = .finite s m e positive) :
    Format.binary64.targetExponent (totalExponent m e) = e := by
  have target : ∀ t, Format.binary64.targetExponent t = max (t - 53) (-1074) := fun _ => rfl
  have bias : ((Format.binary64.exponentBias : Nat) : Int) = 1023 := rfl
  have bits : ((Format.binary64.mantissaBitsWithoutImplicit : Nat) : Int) = 52 := rfl
  rw [target, totalExponent]
  unfold UnpackedFloat.unpack at h
  simp only [bias, bits] at h
  split_ifs at h with special nan subnormal zero
  · -- the exponent field is zero and the mantissa has at most 52 bits
    obtain ⟨-, rfl, rfl⟩ := UnpackedFloat.finite.inj h
    have small : (unpackMantissa b).toNat.log2 < 52 :=
      (Nat.log2_lt (Nat.pos_iff_ne_zero.mp positive)).mpr (unpackMantissa b).isLt
    have field : ((unpackExponent b).toNat : Int) = 0 := by
      rw [subnormal]
      rfl
    rw [field]
    omega
  · -- the leading bit is the implicit one
    obtain ⟨-, rfl, rfl⟩ := UnpackedFloat.finite.inj h
    have size := (unpackMantissa b).isLt
    have whole : (1#1 ++ unpackMantissa b).toNat = 2 ^ 52 + (unpackMantissa b).toNat := by
      rw [BitVec.toNat_append, ← Nat.shiftLeft_add_eq_or_of_lt size]
      rfl
    have leading : (1#1 ++ unpackMantissa b).toNat.log2 = 52 := by
      rw [Nat.log2_eq_iff (Nat.pos_iff_ne_zero.mp positive), whole]
      exact ⟨Nat.le_add_right _ _, by rw [pow_succ]; omega⟩
    have field : 0 < (unpackExponent b).toNat := by
      rw [Nat.pos_iff_ne_zero]
      exact fun empty => subnormal (BitVec.eq_of_toNat_eq (by rw [empty]; rfl))
    rw [leading]
    omega

theorem shiftToTargetExponent_zeros (positive : 0 < m)
    (canonical : Format.binary64.targetExponent (totalExponent m e) = e) (n : Nat) :
    shiftToTargetExponent .binary64 (m * 2 ^ n) (e - n) .exact = (⟨m, false, false⟩, e) := by
  have total : totalExponent (m * 2 ^ n) (e - n) = totalExponent m e := by
    rw [totalExponent, totalExponent, log2_mul_two_pow positive]
    push_cast
    ring
  have amount : (e - (e - n)).toNat = n := by omega
  simp only [shiftToTargetExponent, shiftToExponent, total, canonical, amount,
    ExtendedMantissa.ofMantissaAndAccuracy, shiftRight_zeros, sub_add_cancel]

theorem roundWithAccuracy_zeros (positive : 0 < m)
    (canonical : Format.binary64.targetExponent (totalExponent m e) = e) (n : Nat) :
    roundWithAccuracy .binary64 s (m * 2 ^ n) (e - n) .exact = .finite s m e positive := by
  have again := shiftToTargetExponent_zeros positive canonical 0
  rw [pow_zero, Nat.mul_one, Int.natCast_zero, sub_zero] at again
  have rounded : (⟨m, false, false⟩ : ExtendedMantissa).roundedMantissa = m := rfl
  simp only [roundWithAccuracy, shiftToTargetExponent_zeros positive canonical n, rounded, again,
    dif_neg (Nat.pos_iff_ne_zero.mp positive)]

theorem mul_one (x : Float) : x * 1 = x := by
  have one : (1 : Float).toModel.unpack = .finite .positive (2 ^ 52) (-52) (by decide) := rfl
  have sign : ∀ s : Sign, s * .positive = s := fun s => by cases s <;> rfl
  have unpacked : UnpackedFloat.mul .binary64 x.toModel.unpack (1 : Float).toModel.unpack = x.toModel.unpack := by
    rw [one]
    cases shape : x.toModel.unpack with
    | notANumber => rfl
    | infinity s => exact congrArg _ (sign s)
    | zero s => exact congrArg _ (sign s)
    | finite s m e positive =>
      show roundWithAccuracy .binary64 (s * .positive) (m * 2 ^ 52) (e - 52) .exact = _
      rw [sign]
      exact roundWithAccuracy_zeros positive (targetExponent_unpack shape) 52
  show Float.ofModel (x.toModel.mul (1 : Float).toModel) = x
  rw [Float.Model.mul, unpacked, pack_unpack_model]

end Metrology.Double
