import Metrology.Proofs.Arithmetic.Dimension
import Metrology.Proofs.Reduction.OffsetScale
import Metrology.Proofs.Scalar.Double

/-!
A quantity and its negation. Negation comes before reduction and the sum after it, and reduction
commutes with negation except where a scale with an offset stands alone: there both operands are
read off the scale, and the offset counts twice.
-/

namespace Metrology.Registry
open Outcome Quantity

variable {q t r : Quantity Float} {scale : OffsetScale Float}

theorem scaling_neg : Scaling fun x y : Float => y = -x where
  mul c related := by
    rw [related]
    exact Double.neg_mul _ c
  div c related := by
    rw [related]
    exact Double.neg_div _ c

theorem tidy_negate (tidied : q.tidy = .ok t) : q.negate.tidy = .ok t.negate := by
  obtain ⟨y, negated, same⟩ := tidy_related (x := q.amount) scaling_neg rfl tidied
  rw [negate, negated, same]
  rfl

theorem reduce_negate (covers : standard.Covers q.units) (tidied : q.tidy = .ok t)
    (several : t.offsetScale? = none) (reduced : standard.reduce q = .ok r) :
    standard.reduce q.negate = .ok r.negate := by
  obtain ⟨y, negated, same⟩ := reduce_related (x := -q.amount) standard_indexed standard_plain scaling_neg covers rfl
    (fun tidied' first scale lone => by
      rw [tidied] at first
      rw [← Except.ok.inj first, several] at lone
      cases lone) reduced
  rw [negate, negated, same]
  rfl

theorem standard_reduce_lone (covers : standard.Covers q.units) (tidied : q.tidy = .ok t)
    (lone : t.offsetScale? = some scale) :
    standard.reduce q = .ok ⟨scale.toMetric t.amount, [⟨Builtin.kelvin, none, 1⟩]⟩ := by
  have reduced := reduce_lone covers tidied lone
  have neutral : scale.toMetric t.amount * Scalar.one = scale.toMetric t.amount := Double.mul_one _
  rwa [neutral] at reduced

/-- A quantity plus its negation is zero in the reduced units, unless a scale with an offset stands
alone: then it is the sum of both readings. -/
theorem standard_add_negate (covers : standard.Covers q.units) (tidied : q.tidy = .ok t)
    (reduced : standard.reduce q = .ok r) (finite : r.amount.isFinite = true) :
    ∃ s, standard.add q q.negate = .ok s ∧ standard.subtract q q = .ok s ∧ s.units = r.units ∧
      (t.offsetScale? = none → s.amount = 0) ∧
      ∀ scale, t.offsetScale? = some scale →
        s.amount = scale.toMetric t.amount + scale.toMetric (-t.amount) := by
  cases shape : t.offsetScale? with
  | none =>
    have negated := reduce_negate covers tidied shape reduced
    have sum := add_of_sameUnits reduced negated (sameUnits_of_units rfl)
    refine ⟨_, sum, sum, rfl, ?_, nofun⟩
    exact fun _ => Double.add_neg_self finite
  | some scale =>
    have first := standard_reduce_lone covers tidied shape
    have second := standard_reduce_lone (q := q.negate) covers (tidy_negate tidied) shape
    obtain rfl := Except.ok.inj (first.symm.trans reduced)
    have sum := add_of_sameUnits first second (sameUnits_of_units rfl)
    refine ⟨_, sum, sum, rfl, nofun, ?_⟩
    intro scale' same
    obtain rfl := Option.some.inj same
    rfl

def degreesCelsius (x : Float) : Quantity Float :=
  ⟨x, [⟨Builtin.celsius, none, 1⟩]⟩

theorem degreesCelsius_covers (x : Float) : standard.Covers (degreesCelsius x).units :=
  covers_singleton.mpr Builtin.celsius_mem

theorem degreesCelsius_tidy (x : Float) : (degreesCelsius x).tidy = .ok (degreesCelsius x) :=
  tidy_fixed (tidy_singleton one_ne_zero)

theorem degreesCelsius_scale (x : Float) :
    (degreesCelsius x).offsetScale? = some ⟨"K", Scale.celsiusToKelvin, Scale.kelvinToCelsius⟩ := rfl

theorem degreesCelsius_reduce (x : Float) :
    standard.reduce (degreesCelsius x) = .ok (kelvins (Scale.celsiusToKelvin x) none) :=
  standard_reduce_lone (degreesCelsius_covers x) (degreesCelsius_tidy x) (degreesCelsius_scale x)

theorem kelvins_tidy (x : Float) (pre : Option (Prefix Float)) : (kelvins x pre).tidy = .ok (kelvins x pre) :=
  tidy_fixed (tidy_singleton one_ne_zero)

theorem kelvins_several (x : Float) (pre : Option (Prefix Float)) : (kelvins x pre).offsetScale? = none := by
  show Factor.offsetScale? _ = none
  unfold Factor.offsetScale?
  split <;> rfl

theorem standard_add_negate_temperatures :
    (∃ s, standard.add (kelvins 3 (Prefix.named? "k")) (kelvins 3 (Prefix.named? "k")).negate = .ok s ∧
        s.amount = 0) ∧
      ∃ s, standard.subtract (degreesCelsius 20) (degreesCelsius 20) = .ok s ∧
        s.amount = Scale.celsiusToKelvin 20 + Scale.celsiusToKelvin (-20) := by
  have bounded : (match standard.reduce (kelvins 3 (Prefix.named? "k")) with
      | .ok r => r.amount.isFinite
      | .error _ => false) = true := by decide +kernel
  have warm : (Scale.celsiusToKelvin 20 : Float).isFinite = true := by decide +kernel
  constructor
  · cases reduced : standard.reduce (kelvins 3 (Prefix.named? "k")) with
    | error e =>
      rw [reduced] at bounded
      cases bounded
    | ok r =>
      rw [reduced] at bounded
      obtain ⟨s, sum, -, -, zero, -⟩ :=
        standard_add_negate (kelvins_covers 3 (Prefix.named? "k")) (kelvins_tidy _ _) reduced bounded
      exact ⟨s, sum, zero (kelvins_several _ _)⟩
  · obtain ⟨s, -, difference, -, -, readings⟩ := standard_add_negate (degreesCelsius_covers 20)
      (degreesCelsius_tidy 20) (degreesCelsius_reduce 20) warm
    have amount := readings _ (degreesCelsius_scale 20)
    exact ⟨s, difference, amount⟩

/-- Twenty degrees Celsius less twenty degrees Celsius are not zero kelvins. -/
theorem subtract_degreesCelsius :
    standard.reduce (degreesCelsius 20) = .ok (kelvins 293.15 none) ∧
      standard.add (degreesCelsius 20) (degreesCelsius 20).negate = .ok (kelvins 546.3 none) ∧
      standard.subtract (degreesCelsius 20) (degreesCelsius 20) = .ok (kelvins 546.3 none) ∧
      (546.3 : Float) ≠ 0 := by
  have warm : (Scale.celsiusToKelvin 20 : Float) = 293.15 := by decide +kernel
  have total : (Scale.celsiusToKelvin 20 : Float) + Scale.celsiusToKelvin (-20) = 546.3 := by decide +kernel
  have units : ∀ x y, (kelvins x none).units = (kelvins y none).units := fun _ _ => rfl
  have sum := add_of_sameUnits (degreesCelsius_reduce 20) (degreesCelsius_reduce (-20))
    (sameUnits_of_units (units _ _))
  have result : standard.add (degreesCelsius 20) (degreesCelsius (-20)) = .ok (kelvins 546.3 none) := by
    rw [sum, ← total]
    rfl
  refine ⟨?_, result, result, by decide +kernel⟩
  rw [degreesCelsius_reduce, warm]

end Metrology.Registry
