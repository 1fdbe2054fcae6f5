import Metrology.Proofs.Reduction.Passes
import Metrology.Proofs.Registry.Scale

/-!
The exact built-in scales with an offset. Their readings are affine in the amount, with an offset
that is not zero, and are undone by the inverse scale.
-/

namespace Metrology

variable {scale : OffsetScale Rat}

namespace OffsetScale

/-- The factor between differences on both sides. -/
def slope (scale : OffsetScale Rat) : Rat :=
  (Definition.affine scale).slope

/-- A reading that is affine and not linear, and that its inverse undoes. -/
structure Genuine (scale : OffsetScale Rat) : Prop where
  toMetric_fromMetric : ∀ x, scale.toMetric (scale.fromMetric x) = x
  fromMetric_toMetric : ∀ x, scale.fromMetric (scale.toMetric x) = x
  affine : ∀ x, scale.toMetric x = x * scale.slope + scale.toMetric 0
  offset : scale.toMetric 0 ≠ 0

end OffsetScale

namespace Scale

theorem ofFloat_zero : (Scalar.ofFloat 0 : Rat) = 0 := by decide +kernel

theorem fahrenheitStep_ne_zero : (Scalar.ofFloat fahrenheitStep : Rat) ≠ 0 := by decide +kernel

theorem celsius_genuine :
    (⟨"K", celsiusToKelvin, kelvinToCelsius⟩ : OffsetScale Rat).Genuine := by
  refine ⟨fun x => sub_add_cancel x _, fun x => add_sub_cancel_right x _, ?_, by decide +kernel⟩
  intro x
  simp only [OffsetScale.slope, Definition.slope, celsiusToKelvin, ofFloat_zero, Scalar.one_eq]
  ring

theorem fahrenheit_genuine :
    (⟨"K", fahrenheitToKelvin, kelvinToFahrenheit⟩ : OffsetScale Rat).Genuine := by
  refine ⟨?_, ?_, ?_, by decide +kernel⟩
  · intro x
    simp only [fahrenheitToKelvin, fahrenheitToCelsius, kelvinToFahrenheit, celsiusToFahrenheit]
    rw [add_sub_cancel_right, div_mul_cancel₀ _ fahrenheitStep_ne_zero]
    exact sub_add_cancel x _
  · intro x
    simp only [kelvinToFahrenheit, kelvinToCelsius, fahrenheitToKelvin, celsiusToKelvin,
      celsiusToFahrenheit, fahrenheitToCelsius]
    rw [add_sub_cancel_right, mul_div_cancel_right₀ _ fahrenheitStep_ne_zero, sub_add_cancel]
  · intro x
    simp only [OffsetScale.slope, Definition.slope, fahrenheitToKelvin, fahrenheitToCelsius,
      celsiusToKelvin, ofFloat_zero, Scalar.one_eq]
    ring

end Scale

namespace Registry
open Quantity

theorem Builtin.offsetScales : (units : List (BaseUnit Rat)).filterMap (·.definition.offsetScale?) =
    [⟨"K", Scale.celsiusToKelvin, Scale.kelvinToCelsius⟩,
      ⟨"K", Scale.fahrenheitToKelvin, Scale.kelvinToFahrenheit⟩] := rfl

theorem exact_genuine {u : BaseUnit Rat} (member : u ∈ exact.units) (affine : u.definition = .affine scale) :
    scale.Genuine := by
  rw [builtin_units] at member
  obtain ⟨v, listed, same⟩ := exists_of_mem_numbered member
  have definition : v.definition = .affine scale := by rw [← affine, same]
  have offset : scale ∈ (Builtin.units : List (BaseUnit Rat)).filterMap (·.definition.offsetScale?) :=
    List.mem_filterMap.mpr ⟨v, listed, by rw [definition]; rfl⟩
  rw [Builtin.offsetScales, List.mem_cons, List.mem_singleton] at offset
  rcases offset with rfl | rfl
  · exact Scale.celsius_genuine
  · exact Scale.fahrenheit_genuine

theorem value_kelvins (x : Rat) : exact.value ⟨x, [⟨Builtin.kelvin, none, 1⟩]⟩ = x := by
  have unit : exact.scale Builtin.kelvin = 1 := scale_irreducible rfl
  rw [value, valueBy, worth_singleton, Factor.worth, unit]
  show x * ((Scalar.one : Rat) * 1) ^ (1 : Int) = x
  rw [Scalar.one_eq, mul_one, one_zpow, mul_one]

theorem scale_affine {u : BaseUnit Rat} (member : u ∈ exact.units) (affine : u.definition = .affine scale) :
    exact.scale u = scale.slope := by
  have defined : u.definition.metric? = some "K" := by
    rw [affine]
    exact congrArg some (builtin_affine_metric member affine)
  rw [scale_reducible builtin_indexed exact_acyclic member defined builtin_parse_kelvin, value_kelvins,
    Scalar.one_eq, mul_one, affine]
  rfl

/-- A quantity on a lone scale is worth its amount times the slope, as a difference. -/
theorem value_lone {q : Quantity Rat} (covers : exact.Covers q.units) (lone : q.offsetScale? = some scale) :
    exact.value q = q.amount * scale.slope := by
  obtain ⟨u, units, bare, one, affine⟩ := offsetScale?_ok lone
  have member : u.base ∈ exact.units := covers_singleton.mp (units ▸ covers)
  rw [value, valueBy, units, worth_singleton, Factor.worth, Factor.multiplier, bare, one,
    scale_affine member affine, zpow_one]
  show q.amount * ((Scalar.one : Rat) * scale.slope) = _
  rw [Scalar.one_eq, one_mul]

theorem genuine_of_lone {q : Quantity Rat} (covers : exact.Covers q.units)
    (lone : q.offsetScale? = some scale) : scale.Genuine := by
  obtain ⟨u, units, -, -, affine⟩ := offsetScale?_ok lone
  exact exact_genuine (covers_singleton.mp (units ▸ covers)) affine

end Registry

end Metrology
