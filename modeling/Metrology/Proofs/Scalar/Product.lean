import Metrology.Proofs.Scalar.Double
import Metrology.Proofs.Scalar.Rational

/-!
Products of amounts. `Lawful` is all that arithmetic on quantities takes from them: factors commute,
and one is neutral. Doubles and rationals are both lawful; a product of doubles is not associative.
-/

namespace Metrology.Scalar

/-- Amounts whose factors commute, with one as neutral. -/
class Lawful (α : Type) [Scalar α] : Prop where
  mul_comm : ∀ x y : α, x * y = y * x
  mul_one : ∀ x : α, x * one = x

instance : Lawful Float :=
  ⟨Double.mul_comm, Double.mul_one⟩

instance : Lawful Rat :=
  ⟨Rat.mul_comm, fun x => by rw [one_eq, Rat.mul_one]⟩

end Metrology.Scalar
