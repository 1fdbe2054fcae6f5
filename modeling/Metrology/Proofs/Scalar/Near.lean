import Metrology.Proofs.Scalar.Operations

/-!
Doubles that count as equal. Doubles whose values differ by little pass `isNear`
(`isNear_of_close`), and so a product divided by its factor is near the other factor, where neither
overflow nor underflow loses it (`isNear_detour`).
-/

namespace Metrology.Double
open Scalar

variable {x y a p m : Float}

/-! ### Constants -/

theorem unitRoundoff_eq : unitRoundoff = 1 / 2 ^ 53 := by
  rw [unitRoundoff, zpow_neg, one_div]
  rfl

theorem tolerance_bounds : 1 / 2 ^ 30 ≤ exactValue 1e-9 ∧ exactValue 1e-9 ≤ 1 / 2 ^ 29 := by
  decide +kernel

theorem leastDifference_bound : 2 ^ 78 * leastHalf ≤ exactValue 1e-300 := by
  decide +kernel

/-! ### Near values -/

theorem exactValue_lt (x : Float) : |exactValue x| < 2 ^ (1024 : Int) := by
  have power : (0 : Rat) < 2 ^ (1024 : Int) := by positivity
  have zero : |(0 : Rat)| < 2 ^ (1024 : Int) := abs_zero.trans_lt power
  rw [exactValue_eq]
  cases shape : x.toModel.unpack with
  | notANumber => exact zero
  | infinity s => exact zero
  | zero s => exact zero
  | finite s m e positive =>
    obtain ⟨canonical, fits⟩ := canonical_unpack shape
    rw [unpackedValue, abs_signum_mul, abs_of_nonneg (by positivity)]
    exact (value_lt canonical).trans_le (zpow_le_zpow_right₀ one_le_two (by omega))

/-- Values that differ by a small part of them, or by a few of the least doubles. -/
def Close (x y : Float) : Prop :=
  |exactValue x - exactValue y| ≤ |exactValue y| / 2 ^ 40 + 2 ^ 15 * leastHalf

theorem larger_spec (hx : x.isFinite = true) (hy : y.isFinite = true) :
    (larger x.abs y.abs).isFinite = true ∧ |exactValue y| ≤ exactValue (larger x.abs y.abs) := by
  have absx : x.abs.isFinite = true := by rwa [isFinite_abs]
  have absy : y.abs.isFinite = true := by rwa [isFinite_abs]
  unfold larger
  by_cases order : x.abs ≤ y.abs
  · rw [if_pos (show le x.abs y.abs = true from decide_eq_true order), exactValue_abs]
    exact ⟨absy, le_rfl⟩
  · rw [if_neg (show ¬le x.abs y.abs = true from fun below => order (of_decide_eq_true below))]
    refine ⟨absx, ?_⟩
    rw [le_iff absx absy, not_le, exactValue_abs] at order
    exact order.le

/-- Where the operands are close, so is their rounded difference to zero. -/
theorem difference_bound (hx : x.isFinite = true) (hy : y.isFinite = true) (close : Close x y) :
    (x - y).isFinite = true ∧ |exactValue (x - y)| ≤ |exactValue y| / 2 ^ 39 + 2 ^ 17 * leastHalf := by
  have nearest := nearest_sub hx hy
  have bound := slack_le (exactValue x - exactValue y)
  have least := leastHalf_pos
  rw [unitRoundoff_eq] at bound
  unfold Close at close
  generalize exactValue x - exactValue y = d at close nearest bound
  have finite : (x - y).isFinite = true := by
    refine nearest.finite ?_
    have large := exactValue_lt y
    have tiny : leastHalf ≤ 1 := zpow_le_one_of_nonpos₀ one_le_two (by norm_num)
    have double : (2 : Rat) ^ (1024 : Int) = 2 * 2 ^ (1023 : Int) := zpow_one_add₀ two_ne_zero 1023
    have room : (2 : Rat) ^ (40 : Int) ≤ 2 ^ (1023 : Int) := zpow_le_zpow_right₀ one_le_two (by norm_num)
    rw [double] at large
    generalize (2 : Rat) ^ (1023 : Int) = X at large room ⊢
    linarith
  refine ⟨finite, ?_⟩
  have error := nearest.near finite
  have triangle := abs_sub_abs_le_abs_sub (exactValue (x - y)) d
  have magnitude := abs_nonneg (exactValue y)
  linarith

theorem tolerance_bound {l : Float} (hl : l.isFinite = true) (large : 2 ^ 75 * leastHalf ≤ exactValue l) :
    (1e-9 * l).isFinite = true ∧ exactValue l / 2 ^ 32 ≤ exactValue (1e-9 * l) := by
  have nearest : Nearest (exactValue 1e-9 * exactValue l) (1e-9 * l) := nearest_mul (by decide +kernel) hl
  have bound := slack_le (exactValue 1e-9 * exactValue l)
  obtain ⟨atLeast, atMost⟩ := tolerance_bounds
  have least := leastHalf_pos
  have positive : 0 ≤ exactValue l := by linarith
  have lower := mul_le_mul_of_nonneg_right atLeast positive
  have upper := mul_le_mul_of_nonneg_right atMost positive
  rw [unitRoundoff_eq] at bound
  generalize exactValue 1e-9 * exactValue l = v at nearest bound lower upper
  have sign : |v| = v := abs_of_nonneg (by linarith)
  rw [sign] at bound
  have finite : (1e-9 * l).isFinite = true := by
    refine nearest.finite ?_
    have size := exactValue_lt l
    have double : (2 : Rat) ^ (1024 : Int) = 2 * 2 ^ (1023 : Int) := zpow_one_add₀ two_ne_zero 1023
    rw [abs_of_nonneg positive, double] at size
    rw [sign]
    generalize (2 : Rat) ^ (1023 : Int) = X at size ⊢
    linarith
  have error := neg_le_of_abs_le (nearest.near finite)
  exact ⟨finite, by linarith⟩

theorem isNear_iff : isNear defaultTolerance x y = true ↔ (x == y) = true ∨
    x.isFinite = true ∧ y.isFinite = true ∧
      ((x - y).abs < 1e-300 ∨ (x - y).abs ≤ 1e-9 * larger x.abs y.abs) := by
  rw [isNear, Bool.or_eq_true, Bool.and_eq_true, Bool.and_eq_true, Bool.or_eq_true, and_assoc]
  refine or_congr Iff.rfl (and_congr Iff.rfl (and_congr Iff.rfl (or_congr ?_ ?_)))
  · exact decide_eq_true_iff
  · exact decide_eq_true_iff

theorem isNear_of_close (hx : x.isFinite = true) (hy : y.isFinite = true) (close : Close x y) :
    isNear defaultTolerance x y = true := by
  obtain ⟨finite, bound⟩ := difference_bound hx hy close
  have absd : (x - y).abs.isFinite = true := by rwa [isFinite_abs]
  have least := leastHalf_pos
  refine isNear_iff.mpr (.inr ⟨hx, hy, ?_⟩)
  by_cases small : |exactValue y| < 2 ^ 75 * leastHalf
  · left
    rw [lt_iff absd (by decide +kernel), exactValue_abs]
    have difference := leastDifference_bound
    linarith
  · right
    obtain ⟨hl, magnitude⟩ := larger_spec hx hy
    obtain ⟨product, size⟩ := tolerance_bound hl (by linarith)
    rw [le_iff absd product, exactValue_abs]
    linarith

/-! ### A product divided by its factor -/

/-- The exact quotient is near `a`; rounding it leaves it close. -/
theorem close_of_quotient (hm : m.isFinite = true) (hp : p.isFinite = true) (finite : (m / p).isFinite = true)
    (near : |exactValue m / exactValue p - exactValue a| ≤ |exactValue a| / 2 ^ 50 + 2 ^ 5 * leastHalf) :
    Close (m / p) a := by
  have nonzero : exactValue p ≠ 0 := (finite_of_div finite).2 hp
  have error := (nearest_div hm hp nonzero).near finite
  have bound := slack_le (exactValue m / exactValue p)
  rw [unitRoundoff_eq] at bound
  generalize exactValue m / exactValue p = w at near error bound
  have size := abs_sub_abs_le_abs_sub w (exactValue a)
  have triangle := abs_sub_le (exactValue (m / p)) w (exactValue a)
  have magnitude := abs_nonneg (exactValue a)
  have least := leastHalf_pos
  unfold Close
  linarith

theorem abs_div_sub {v w z : Rat} (nonzero : w ≠ 0) : |v / w - z| = |v - z * w| / |w| := by
  rw [← abs_div, sub_div, mul_div_cancel_right₀ _ nonzero]

theorem product_error (finite : (a * p).isFinite = true) :
    |exactValue (a * p) - exactValue a * exactValue p| ≤ slack (exactValue a * exactValue p) := by
  obtain ⟨ha, hp⟩ := finite_of_mul finite
  exact (nearest_mul ha hp).near finite

theorem detour_large (finite : (a * p).isFinite = true) (large : 1 / 2 ≤ |exactValue p|) :
    |exactValue (a * p) / exactValue p - exactValue a| ≤ |exactValue a| / 2 ^ 50 + 2 ^ 5 * leastHalf := by
  have positive : 0 < |exactValue p| := by linarith
  have error := (product_error finite).trans (slack_le _)
  have least := leastHalf_pos
  have magnitude := abs_nonneg (exactValue a)
  rw [abs_mul, unitRoundoff_eq] at error
  rw [abs_div_sub (abs_pos.mp positive), div_le_iff₀ positive]
  nlinarith

theorem detour_normal (nonzero : exactValue p ≠ 0) (finite : (a * p).isFinite = true)
    (normal : 2 ^ 52 * leastHalf ≤ |exactValue (a * p)|) :
    |exactValue (a * p) / exactValue p - exactValue a| ≤ |exactValue a| / 2 ^ 50 + 2 ^ 5 * leastHalf := by
  have positive : 0 < |exactValue p| := abs_pos.mpr nonzero
  have error := (product_error finite).trans (slack_le _)
  have size := abs_sub_abs_le_abs_sub (exactValue (a * p)) (exactValue a * exactValue p)
  have least := leastHalf_pos
  rw [unitRoundoff_eq] at error
  have relative : |exactValue (a * p) - exactValue a * exactValue p| ≤ |exactValue a| / 2 ^ 50 * |exactValue p| := by
    rw [abs_mul] at error size
    linarith
  rw [abs_div_sub nonzero, div_le_iff₀ positive]
  nlinarith

/-- Finite doubles that differ by less than the least positive one are equal. -/
theorem exactValue_eq_of_lt (hx : x.isFinite = true) (hy : y.isFinite = true)
    (near : |exactValue x - exactValue y| < 2 * leastHalf) : exactValue x = exactValue y := by
  obtain ⟨i, left⟩ := exists_multiple hx
  obtain ⟨j, right⟩ := exists_multiple hy
  have least := leastHalf_pos
  have unit : (2 : Rat) ^ (-1074 : Int) = 2 * leastHalf := zpow_one_add₀ two_ne_zero (-1075)
  rw [unit] at left right
  have distance : exactValue x - exactValue y = ((i - j : Int) : Rat) * (2 * leastHalf) := by
    rw [left, right]
    push_cast
    ring
  have twice : (0 : Rat) < 2 * leastHalf := by linarith
  rw [distance, abs_mul, abs_of_pos twice, mul_lt_iff_lt_one_left twice] at near
  have same : i = j := by
    have whole : |i - j| < 1 := by exact_mod_cast near
    rw [Int.abs_lt_one_iff] at whole
    omega
  rw [left, right, same]

/-- Below the normal doubles a quotient times its divisor is the dividend again. -/
theorem detour_subnormal {n : Float} (hn : n.isFinite = true) (finite : (n / p * p).isFinite = true)
    (small : |exactValue p| < 1 / 2) (nonzero : exactValue p ≠ 0)
    (subnormal : |exactValue (n / p * p)| < 2 ^ 52 * leastHalf) : exactValue (n / p * p) = exactValue n := by
  obtain ⟨quotient, hp⟩ := finite_of_mul finite
  have positive : 0 < |exactValue p| := abs_pos.mpr nonzero
  have least := leastHalf_pos
  -- the product is below the normal doubles, so its error is at most `leastHalf`
  have error := product_error finite
  have size := abs_sub_abs_le_abs_sub (exactValue (n / p) * exactValue p) (exactValue (n / p * p))
  rw [abs_sub_comm] at size
  have additive := slack_le (exactValue (n / p) * exactValue p)
  have product : |exactValue (n / p * p) - exactValue (n / p) * exactValue p| ≤ leastHalf := by
    refine error.trans (max_le ?_ le_rfl)
    rw [unitRoundoff_eq] at additive ⊢
    linarith
  -- so is the dividend, and the quotient misses it by less than `leastHalf`
  have dividend : |exactValue (n / p) * exactValue p - exactValue n| < leastHalf := by
    have scaled : exactValue (n / p) * exactValue p - exactValue n =
        (exactValue (n / p) - exactValue n / exactValue p) * exactValue p := by
      rw [sub_mul, div_mul_cancel₀ _ nonzero]
    have missed : |exactValue (n / p) * exactValue p - exactValue n| ≤
        max (unitRoundoff * |exactValue n|) (leastHalf * |exactValue p|) := by
      rw [scaled, abs_mul]
      refine (mul_le_mul_of_nonneg_right ((nearest_div hn hp nonzero).near quotient) positive.le).trans ?_
      rw [slack, max_mul_of_nonneg _ _ positive.le, abs_div, mul_assoc, div_mul_cancel₀ _ positive.ne']
    have reach := abs_sub_abs_le_abs_sub (exactValue n) (exactValue (n / p) * exactValue p)
    rw [abs_sub_comm] at reach
    have half : leastHalf * |exactValue p| < leastHalf := by nlinarith
    have relative : unitRoundoff * |exactValue n| < leastHalf := by
      rw [unitRoundoff_eq] at missed additive ⊢
      rcases le_max_iff.mp missed with left | right
      · linarith
      · linarith
    exact missed.trans_lt (max_lt relative half)
  refine exactValue_eq_of_lt finite hn ?_
  have triangle := abs_sub_le (exactValue (n / p * p)) (exactValue (n / p) * exactValue p) (exactValue n)
  linarith

/-- A product divided by its factor is near the other factor, if it is finite, where the factor is not
small, the product is normal or the other factor is itself a quotient by that factor. -/
theorem isNear_detour (finite : (a * p / p).isFinite = true)
    (kept : 1 / 2 ≤ |exactValue p| ∨ 2 ^ 52 * leastHalf ≤ |exactValue (a * p)| ∨ ∃ n, a = n / p) :
    isNear defaultTolerance (a * p / p) a = true := by
  obtain ⟨product, divisor⟩ := finite_of_div finite
  obtain ⟨ha, hp⟩ := finite_of_mul product
  have nonzero : exactValue p ≠ 0 := divisor hp
  refine isNear_of_close finite ha (close_of_quotient product hp finite ?_)
  by_cases large : 1 / 2 ≤ |exactValue p|
  · exact detour_large product large
  · by_cases normal : 2 ^ 52 * leastHalf ≤ |exactValue (a * p)|
    · exact detour_normal nonzero product normal
    · obtain ⟨n, rfl⟩ := (kept.resolve_left large).resolve_left normal
      have hn : n.isFinite = true := (finite_of_div ha).1
      rw [detour_subnormal hn product (not_le.mp large) nonzero (not_le.mp normal)]
      have error := (nearest_div hn hp nonzero).near ha
      have bound := slack_le (exactValue n / exactValue p)
      have size := abs_sub_abs_le_abs_sub (exactValue n / exactValue p) (exactValue (n / p))
      have least := leastHalf_pos
      have magnitude := abs_nonneg (exactValue (n / p))
      rw [unitRoundoff_eq] at bound
      rw [abs_sub_comm] at error
      linarith

/-! ### Powers -/

/-- At least `k`, where it is finite at all. -/
def AtLeast (k : Rat) (x : Float) : Prop :=
  x.isFinite = true → k ≤ exactValue x

theorem AtLeast.mul {k : Rat} (hx : AtLeast k x) (hy : AtLeast 2 y) (one : 1 ≤ k) : AtLeast k (x * y) := by
  intro finite
  obtain ⟨finite_x, finite_y⟩ := finite_of_mul finite
  have product : k * 2 ≤ exactValue x * exactValue y :=
    mul_le_mul (hx finite_x) (hy finite_y) two_pos.le (by linarith [hx finite_x])
  have error := neg_le_of_abs_le ((product_error finite).trans (slack_le _))
  have tiny : leastHalf ≤ 2 ^ (-3 : Int) := zpow_le_zpow_right₀ one_le_two (by norm_num)
  rw [abs_of_nonneg (by linarith), unitRoundoff_eq] at error
  norm_num at tiny
  linarith

/-- Repeated squaring of a number from two on stays at least one. -/
theorem atLeast_mulPow {r : Float} (hr : AtLeast 1 r) (hx : AtLeast 2 x) (n : Nat) : AtLeast 1 (mulPow r x n) := by
  induction n using Nat.strong_induction_on generalizing r x with
  | _ n ih =>
    have next : AtLeast 1 (if n % 2 = 1 then r * x else r) := by
      split
      · exact hr.mul hx le_rfl
      · exact hr
    unfold mulPow
    by_cases last : n / 2 = 0
    · rw [dif_pos last]
      exact next
    · rw [dif_neg last]
      exact ih (n / 2) (by omega) next (hx.mul hx one_le_two)

theorem atLeast_pow {n : Int} (positive : 0 ≤ n) : AtLeast 1 (pow 1000 n) := by
  have one : AtLeast 1 (one : Float) := fun _ => by decide +kernel
  have thousand : AtLeast 2 (1000 : Float) := fun _ => by decide +kernel
  unfold pow
  rw [if_neg (by omega)]
  exact atLeast_mulPow one thousand n.natAbs

end Metrology.Double
