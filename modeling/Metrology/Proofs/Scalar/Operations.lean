import Metrology.Proofs.Scalar.Rounding

/-!
Operations on doubles. Products, quotients and differences are those of the values, rounded once
(`Nearest`); and a finite product or quotient comes from finite operands.
-/

namespace Metrology.Double
open Float.Model Float.Model.UnpackedFloat Scalar

variable {x y : Float} {m : Nat} {e : Int} {v : Rat}

/-! ### Products -/

theorem mul_room {m' : Nat} {e' : Int} (left : Canonical m e) (right : Canonical m' e') (positive : 0 < m)
    (positive' : 0 < m') : 52 ≤ (m * m').log2 ∨ e + e' ≤ -1074 := by
  have nonzero : m * m' ≠ 0 := (Nat.mul_pos positive positive').ne'
  rw [Nat.le_log2 nonzero]
  rcases left.normal with full | least
  · exact .inl (full.trans (Nat.le_mul_of_pos_right m positive'))
  · rcases right.normal with full' | least'
    · exact .inl (full'.trans (Nat.le_mul_of_pos_left m' positive))
    · exact .inr (by omega)

theorem rounds_mul {u w : UnpackedFloat} (hu : Regular u) (hw : Regular w) :
    Rounds (unpackedValue u * unpackedValue w) (UnpackedFloat.mul .binary64 u w) := by
  cases u with
  | notANumber => cases hu
  | infinity s => cases hu
  | zero s =>
    cases w with
    | notANumber => cases hw
    | infinity s' => cases hw
    | zero s' => exact .of_eq trivial (zero_mul _).symm
    | finite s' m' e' positive' => exact .of_eq trivial (zero_mul _).symm
  | finite s m e positive =>
    cases w with
    | notANumber => cases hw
    | infinity s' => cases hw
    | zero s' => exact .of_eq trivial (mul_zero _).symm
    | finite s' m' e' positive' =>
      have holds : Holds (.ofMantissaAndAccuracy (m * m') .exact) (m * m' : Nat) := rfl
      have rounded := rounds_roundWithAccuracy (s * s') (mul_room hu hw positive positive') holds
      have product : unpackedValue (.finite s m e positive) * unpackedValue (.finite s' m' e' positive') =
          signum (s * s') * ((m * m' : Nat) * 2 ^ (e + e')) := by
        rw [unpackedValue, unpackedValue, signum_mul, zpow_add₀ two_ne_zero]
        push_cast
        ring
      rwa [product]

/-! ### Quotients -/

/-- The remainder tells where in its unit the quotient lies. -/
theorem holds_quotient (n : Nat) {d : Nat} (positive : 0 < d) :
    Holds (.ofMantissaAndAccuracy (n / d) (accuracyOfFraction (n % d) d)) (n / d : Rat) := by
  have divisor : (0 : Rat) < d := by exact_mod_cast positive
  have parts : (n : Rat) = d * (n / d : Nat) + (n % d : Nat) := by exact_mod_cast (Nat.div_add_mod n d).symm
  have split : (n : Rat) / d = (n / d : Nat) + (n % d : Nat) / d := by
    rw [parts, add_div, mul_div_cancel_left₀ _ divisor.ne']
  have proper : n % d < d := Nat.mod_lt n positive
  rw [split]
  generalize n / d = q
  generalize n % d = r at proper
  have small : (r : Rat) / d < 1 := by
    rw [div_lt_one divisor]
    exact_mod_cast proper
  unfold accuracyOfFraction
  by_cases zero : r = 0
  · rw [if_pos zero, zero, Nat.cast_zero, zero_div, add_zero]
    rfl
  · have some : (0 : Rat) < r / d := div_pos (by exact_mod_cast Nat.pos_of_ne_zero zero) divisor
    rw [if_neg zero]
    rcases lt_trichotomy (2 * r) d with lt | half | gt
    · have below : (r : Rat) / d < 1 / 2 := by
        rw [div_lt_div_iff₀ divisor two_pos]
        exact_mod_cast (by omega : r * 2 < 1 * d)
      rw [compare_lt_iff_lt.mpr lt]
      show (q : Rat) < q + r / d ∧ (q + r / d : Rat) < q + 1 / 2
      constructor <;> linarith
    · have exactly : (r : Rat) / d = 1 / 2 := by
        rw [div_eq_div_iff divisor.ne' two_ne_zero]
        exact_mod_cast (by omega : r * 2 = 1 * d)
      rw [compare_eq_iff_eq.mpr half, exactly]
      rfl
    · have above : (1 : Rat) / 2 < r / d := by
        rw [div_lt_div_iff₀ two_pos divisor]
        exact_mod_cast (by omega : 1 * d < r * 2)
      rw [compare_gt_iff_gt.mpr gt]
      show (q + 1 / 2 : Rat) < q + r / d ∧ (q + r / d : Rat) < q + 1
      constructor <;> linarith

/-- The dividend is shifted far enough for the quotient to have its bits. -/
theorem divCore_spec {m' : Nat} (e e' : Int) (positive : 0 < m) (positive' : 0 < m') :
    ∃ q t accuracy v, divCore .binary64 m e m' e' = (q, t, accuracy) ∧ (52 ≤ q.log2 ∨ t ≤ -1074) ∧
      Holds (.ofMantissaAndAccuracy q accuracy) v ∧ v * 2 ^ t = m * 2 ^ e / (m' * 2 ^ e') := by
  have aim : ∀ total, Format.binary64.targetExponent total = max (total - 53) (-1074) := fun _ => rfl
  let t := min (e - e') (Format.binary64.targetExponent (totalExponent m e - totalExponent m' e'))
  obtain ⟨k, shift⟩ : ∃ k : Nat, e - e' = t + k := ⟨(e - e' - t).toNat, by omega⟩
  have amount : (e - e' - t).toNat = k := by omega
  have core : divCore .binary64 m e m' e' =
      (m * 2 ^ k / m', t, accuracyOfFraction (m * 2 ^ k % m') m') := by
    rw [← Nat.shiftLeft_eq, ← amount]
    rfl
  refine ⟨_, _, _, (m * 2 ^ k : Nat) / m', core, ?_, holds_quotient _ positive', ?_⟩
  · by_cases lowest : t ≤ -1074
    · exact .inr lowest
    · left
      have reach : m'.log2 + 53 ≤ m.log2 + k := by
        have near : t ≤ m.log2 + 1 + e - (m'.log2 + 1 + e') - 53 := by
          have bound : t ≤ Format.binary64.targetExponent (totalExponent m e - totalExponent m' e') := min_le_right _ _
          rw [aim, totalExponent, totalExponent] at bound
          omega
        omega
      have large : 2 ^ 52 * m' ≤ m * 2 ^ k :=
        calc 2 ^ 52 * m' ≤ 2 ^ 52 * 2 ^ (m'.log2 + 1) := Nat.mul_le_mul_left _ Nat.lt_log2_self.le
          _ = 2 ^ (m'.log2 + 53) := by rw [← Nat.pow_add]; congr 1; omega
          _ ≤ 2 ^ (m.log2 + k) := Nat.pow_le_pow_right two_pos reach
          _ = 2 ^ m.log2 * 2 ^ k := Nat.pow_add ..
          _ ≤ m * 2 ^ k := Nat.mul_le_mul_right _ (Nat.log2_self_le positive.ne')
      have quotient : 2 ^ 52 ≤ m * 2 ^ k / m' := (Nat.le_div_iff_mul_le positive').mpr large
      exact (Nat.le_log2 (by omega)).mpr quotient
  · have divisor : (m' : Rat) ≠ 0 := by exact_mod_cast positive'.ne'
    have power : (2 : Rat) ^ e = 2 ^ t * 2 ^ k * 2 ^ e' := by
      rw [← zpow_natCast, ← zpow_add₀ two_ne_zero, ← zpow_add₀ two_ne_zero]
      congr 1
      omega
    rw [power]
    push_cast
    field_simp

theorem rounds_div {u w : UnpackedFloat} (hu : Regular u) (hw : Regular w) (nonzero : unpackedValue w ≠ 0) :
    Rounds (unpackedValue u / unpackedValue w) (UnpackedFloat.div .binary64 u w) := by
  cases w with
  | notANumber => cases hw
  | infinity s' => cases hw
  | zero s' => exact absurd rfl nonzero
  | finite s' m' e' positive' =>
    cases u with
    | notANumber => cases hu
    | infinity s => cases hu
    | zero s => exact .of_eq trivial (zero_div _).symm
    | finite s m e positive =>
      obtain ⟨q, t, accuracy, v, core, room, holds, value⟩ := divCore_spec e e' positive positive'
      have rounded := rounds_roundWithAccuracy (s / s') room holds
      have quotient : unpackedValue (.finite s m e positive) / unpackedValue (.finite s' m' e' positive') =
          signum (s / s') * (v * 2 ^ t) := by
        rw [unpackedValue, unpackedValue, signum_div, value, mul_div_mul_comm]
      rw [quotient]
      simpa only [UnpackedFloat.div, core] using rounded

/-! ### Differences -/

theorem decreaseExponent_value (m : Nat) (e t : Int) :
    ((decreaseExponent m e t).1 : Rat) * 2 ^ (decreaseExponent m e t).2 = m * 2 ^ e := by
  show ((m <<< (e - t).toNat : Nat) : Rat) * 2 ^ (e - (e - t).toNat) = _
  rw [Nat.shiftLeft_eq, Nat.cast_mul, mul_assoc, Nat.cast_pow, Nat.cast_ofNat, ← zpow_natCast,
    ← zpow_add₀ two_ne_zero]
  congr 2
  omega

theorem decreaseExponent_spec {t : Int} (m : Nat) (below : t ≤ e) :
    ∃ n, decreaseExponent m e t = (n, t) ∧ (n : Rat) * 2 ^ t = m * 2 ^ e := by
  have value := decreaseExponent_value m e t
  have aim : (decreaseExponent m e t).2 = t := by
    show e - ((e - t).toNat : Int) = t
    omega
  rw [aim] at value
  exact ⟨_, Prod.ext rfl aim, value⟩

theorem rounds_round (s : Sign) (positive : 0 < m) (e : Int) :
    Rounds (signum s * (m * 2 ^ e)) (UnpackedFloat.round .binary64 s m e) := by
  have value := decreaseExponent_value m e (target m e)
  have room : 52 ≤ (decreaseExponent m e (target m e)).1.log2 ∨ (decreaseExponent m e (target m e)).2 ≤ -1074 := by
    show 52 ≤ (m <<< (e - target m e).toNat).log2 ∨ e - (e - target m e).toNat ≤ -1074
    have bits := log2_mul_two_pow positive (e - target m e).toNat
    rw [Nat.shiftLeft_eq, bits, target_eq]
    omega
  rw [← value]
  exact rounds_roundWithAccuracy s room rfl

theorem rounds_normalize (m e : Int) (zero : Sign) :
    Rounds (m * 2 ^ e) (UnpackedFloat.normalize .binary64 m e zero) := by
  unfold UnpackedFloat.normalize
  rcases lt_trichotomy m 0 with negative | rfl | positive
  · rw [compare_lt_iff_lt.mpr negative]
    have magnitude : (m : Rat) = signum .negative * ((-m).toNat : Nat) := by
      have cast : (((-m).toNat : Nat) : Rat) = ((-m : Int) : Rat) := by
        exact_mod_cast Int.toNat_of_nonneg (by omega : 0 ≤ -m)
      rw [cast, signum]
      push_cast
      ring
    rw [magnitude, mul_assoc]
    exact rounds_round .negative (by omega) e
  · rw [compare_eq_iff_eq.mpr rfl]
    exact .of_eq trivial (by rw [Int.cast_zero, zero_mul]; rfl)
  · rw [compare_gt_iff_gt.mpr positive]
    have magnitude : (m : Rat) = signum .positive * (m.toNat : Nat) := by
      have cast : ((m.toNat : Nat) : Rat) = (m : Rat) := by
        exact_mod_cast Int.toNat_of_nonneg positive.le
      rw [cast, signum, one_mul]
    rw [magnitude, mul_assoc]
    exact rounds_round .positive (by omega) e

theorem signum_apply (s : Sign) (n : Nat) : ((s.apply n : Int) : Rat) = signum s * n := by
  cases s <;> simp [Sign.apply, signum]

theorem rounds_sub {u w : UnpackedFloat} (hu : Regular u) (hw : Regular w) :
    Rounds (unpackedValue u - unpackedValue w) (UnpackedFloat.sub .binary64 u w) := by
  cases u with
  | notANumber => cases hu
  | infinity s => cases hu
  | zero s =>
    cases w with
    | notANumber => cases hw
    | infinity s' => cases hw
    | zero s' =>
      simp only [UnpackedFloat.sub]
      split
      · exact .of_eq trivial (sub_zero _).symm
      · exact .of_eq trivial (sub_zero _).symm
    | finite s' m' e' positive' =>
      refine .of_eq hw ?_
      show signum (-s') * (m' * 2 ^ e') = 0 - signum s' * (m' * 2 ^ e')
      rw [signum_neg]
      ring
  | finite s m e positive =>
    cases w with
    | notANumber => cases hw
    | infinity s' => cases hw
    | zero s' => exact .of_eq hu (sub_zero _).symm
    | finite s' m' e' positive' =>
      obtain ⟨n, left, value⟩ := decreaseExponent_spec m (min_le_left e e')
      obtain ⟨n', right, value'⟩ := decreaseExponent_spec m' (min_le_right e e')
      have rounded := rounds_normalize (s.apply n - s'.apply n') (min e e') .positive
      have difference : unpackedValue (.finite s m e positive) - unpackedValue (.finite s' m' e' positive') =
          (s.apply n - s'.apply n' : Int) * 2 ^ min e e' := by
        rw [Int.cast_sub, signum_apply, signum_apply, unpackedValue, unpackedValue, ← value, ← value']
        ring
      rw [difference]
      simpa only [UnpackedFloat.sub, left, right] using rounded

/-! ### Operations on doubles -/

/-- What rounding `v` gives: a finite double unless `v` is large, and one near `v`. -/
structure Nearest (v : Rat) (x : Float) : Prop where
  finite : |v| < 2 ^ (1023 : Int) → x.isFinite = true
  near : x.isFinite = true → |exactValue x - v| ≤ slack v

theorem slack_le (v : Rat) : slack v ≤ unitRoundoff * |v| + leastHalf := by
  have relative : 0 ≤ unitRoundoff * |v| := mul_nonneg unitRoundoff_pos.le (abs_nonneg v)
  have absolute := leastHalf_pos
  exact max_le (by linarith) (by linarith)

theorem slack_le_half (v : Rat) : slack v ≤ (|v| + 1) / 2 := by
  have unit : unitRoundoff ≤ 2 ^ (-1 : Int) := zpow_le_zpow_right₀ one_le_two (by norm_num)
  have half : leastHalf ≤ 2 ^ (-1 : Int) := zpow_le_zpow_right₀ one_le_two (by norm_num)
  have relative := mul_le_mul_of_nonneg_right unit (abs_nonneg v)
  rw [zpow_neg_one] at half relative
  have bound := slack_le v
  linarith

theorem Rounds.nearest {u : UnpackedFloat} (rounds : Rounds v u) :
    Nearest v (Float.ofModel (Float.Model.pack u)) := by
  obtain ⟨value, packs⟩ := exactValue_pack rounds.regular
  constructor
  · intro small
    refine packs ?_
    have error := abs_sub_abs_le_abs_sub (unpackedValue u) v
    have bound := slack_le_half v
    have near := rounds.near
    have one : (1 : Rat) ≤ 2 ^ (1023 : Int) := one_le_zpow₀ one_le_two (by norm_num)
    have double : (2 : Rat) ^ (1024 : Int) = 2 * 2 ^ (1023 : Int) := zpow_one_add₀ two_ne_zero 1023
    rw [double]
    generalize (2 : Rat) ^ (1023 : Int) = X at small one
    linarith
  · intro finite
    rw [value finite]
    exact rounds.near

theorem nearest_mul (hx : x.isFinite = true) (hy : y.isFinite = true) :
    Nearest (exactValue x * exactValue y) (x * y) := by
  rw [exactValue_eq, exactValue_eq]
  exact (rounds_mul (regular_unpack hx) (regular_unpack hy)).nearest

theorem nearest_div (hx : x.isFinite = true) (hy : y.isFinite = true) (nonzero : exactValue y ≠ 0) :
    Nearest (exactValue x / exactValue y) (x / y) := by
  rw [exactValue_eq] at nonzero
  rw [exactValue_eq, exactValue_eq]
  exact (rounds_div (regular_unpack hx) (regular_unpack hy) nonzero).nearest

theorem nearest_sub (hx : x.isFinite = true) (hy : y.isFinite = true) :
    Nearest (exactValue x - exactValue y) (x - y) := by
  rw [exactValue_eq, exactValue_eq]
  exact (rounds_sub (regular_unpack hx) (regular_unpack hy)).nearest

theorem isFinite_of_pack {u : UnpackedFloat} (h : (Float.ofModel (Float.Model.pack u)).isFinite = true) :
    u.isFinite = true := by
  change (Float.Model.pack u).unpack.isFinite = true at h
  cases u with
  | notANumber => cases h
  | infinity s =>
    rw [unpack_pack_infinity] at h
    cases h
  | zero s => rfl
  | finite s m e positive => rfl

theorem finite_of_mul (h : (x * y).isFinite = true) : x.isFinite = true ∧ y.isFinite = true := by
  have result : (UnpackedFloat.mul .binary64 x.toModel.unpack y.toModel.unpack).isFinite = true := isFinite_of_pack h
  show x.toModel.unpack.isFinite = true ∧ y.toModel.unpack.isFinite = true
  revert result
  cases x.toModel.unpack <;> cases y.toModel.unpack <;> first | exact fun _ => ⟨rfl, rfl⟩ | nofun

theorem unpackedValue_ne_zero (s : Sign) (e : Int) (positive : 0 < m) :
    unpackedValue (.finite s m e positive) ≠ 0 := by
  cases s with
  | negative => exact (unpackedValue_negative e positive).ne
  | positive => exact (unpackedValue_positive e positive).ne'

theorem finite_of_div (h : (x / y).isFinite = true) :
    x.isFinite = true ∧ (y.isFinite = true → exactValue y ≠ 0) := by
  have result : (UnpackedFloat.div .binary64 x.toModel.unpack y.toModel.unpack).isFinite = true := isFinite_of_pack h
  show x.toModel.unpack.isFinite = true ∧ (y.toModel.unpack.isFinite = true → exactValue y ≠ 0)
  rw [exactValue_eq]
  revert result
  cases y.toModel.unpack with
  | notANumber => cases x.toModel.unpack <;> nofun
  | infinity s => cases x.toModel.unpack <;> first | exact fun _ => ⟨rfl, nofun⟩ | nofun
  | zero s => cases x.toModel.unpack <;> nofun
  | finite s m e positive =>
    have nonzero := unpackedValue_ne_zero s e positive
    cases x.toModel.unpack <;> first | exact fun _ => ⟨rfl, fun _ => nonzero⟩ | nofun

end Metrology.Double
