import Mathlib.Algebra.Order.Field.Rat
import Mathlib.Tactic.Ring
import Metrology.Scalar.Rational

/-!
Powers of rational scalars: repeated squaring computes the power of the field, for exponents of
either sign.
-/

namespace Metrology.Scalar

theorem one_eq : (one : Rat) = 1 := by decide +kernel

theorem isNear_refl (tolerance x : Rat) : isNear tolerance x x = true := by
  rw [isNear, beq_self_eq_true, Bool.true_or]

theorem ofFloat_thousand : (ofFloat 1000 : Rat) = 1000 := by decide +kernel

theorem ofFloat_kilo : (ofFloat 1e3 : Rat) = 1000 := by decide +kernel

theorem mulPow_eq (r x : Rat) (n : Nat) : mulPow r x n = r * x ^ n := by
  induction n using Nat.strong_induction_on generalizing r x with
  | _ n ih =>
    have halves : n = 2 * (n / 2) + n % 2 := (Nat.div_add_mod n 2).symm
    have bit : (if n % 2 = 1 then r * x else r) = r * x ^ (n % 2) := by
      rcases Nat.mod_two_eq_zero_or_one n with even | odd
      · rw [even, pow_zero, mul_one, if_neg (by omega)]
      · rw [odd, pow_one, if_pos rfl]
    rw [mulPow]
    simp only [bit]
    split
    · rename_i small
      conv_rhs => rw [halves, small, mul_zero, zero_add]
    · rename_i large
      rw [ih (n / 2) (by omega)]
      conv_rhs => rw [halves, pow_add, pow_mul, pow_two]
      ring

theorem pow_eq_zpow (x : Rat) (n : Int) : pow x n = x ^ n := by
  unfold pow
  rw [mulPow_eq, one_eq, one_mul]
  split
  · rename_i negative
    obtain ⟨m, rfl⟩ : ∃ m : Nat, n = -m := ⟨n.natAbs, by omega⟩
    rw [Int.natAbs_neg, Int.natAbs_natCast, zpow_neg, zpow_natCast, one_div]
  · rename_i positive
    obtain ⟨m, rfl⟩ : ∃ m : Nat, n = m := ⟨n.natAbs, by omega⟩
    rw [Int.natAbs_natCast, zpow_natCast]

end Metrology.Scalar
