import Metrology.Proofs.Arithmetic.Value
import Metrology.Proofs.Registry.OffsetScale

/-!
A quantity and its inverse. The inverse is taken before reduction and the product after it, and their
product is one except where one of the two is a scale with an offset that stands alone: that one is
read off the scale, while the other scales like a difference.
-/

namespace Metrology.Registry
open Outcome Quantity

section Dimensionless

variable {α : Type} [Scalar α] {r : Registry α} {a b p : Quantity α}

omit [Scalar α] in
theorem support_zero : r.support 0 = [] := by
  rw [List.eq_nil_iff_forall_not_mem]
  intro b member
  rw [support_eq, List.mem_filter, mem_ranked] at member
  exact member.1.2 rfl

/-- A product whose dimensions cancel has no units. -/
theorem multiply_dimensionless (indexed : r.Indexed) (acyclic : r.Acyclic) (ha : r.Covers a.units)
    (hb : r.Covers b.units) (cancel : r.dimensionOf a + r.dimensionOf b = 0) (h : r.multiply a b = .ok p) :
    p.units = [] := by
  obtain ⟨s, t, first, second, tidied⟩ := multiply_ok h
  have covers : r.Covers (s.units ++ t.units) := covers_append.mpr
    ⟨covers_reduce indexed ha first, covers_reduce indexed hb second⟩
  have progress := progress_tidy (q := ⟨s.amount * t.amount, s.units ++ t.units⟩) indexed covers tidied
  have zero : r.dimensionOf ⟨s.amount * t.amount, s.units ++ t.units⟩ = 0 := by
    rw [← cancel, ← dimension_reduce indexed acyclic ha first, ← dimension_reduce indexed acyclic hb second]
    exact weigh_append
  have irreducible : ∀ w ∈ p.units, w.base.definition.metric? = none := by
    intro w member
    obtain ⟨v, origin, base, -⟩ := tidy_origin tidied member
    rw [base]
    rcases List.mem_append.mp origin with left | right
    · exact irreducible_reduce indexed ha first v left
    · exact irreducible_reduce indexed hb second v right
  have bases := bases_eq_support indexed.toNumbered progress.covers progress.shape irreducible
  rw [show weigh r.dimension p.units = 0 from progress.dimension.trans zero, support_zero] at bases
  exact List.map_eq_nil_iff.mp bases

end Dimensionless

variable {q i p s t : Quantity Rat} {scale : OffsetScale Rat}

/-! ### What a reduction is worth -/

/-- What a tidy quantity is worth after reduction: a lone scale its reading, all else its value. -/
def readValue (t : Quantity Rat) : Rat :=
  match t.offsetScale? with
  | some scale => scale.toMetric t.amount
  | none => exact.value t

theorem readValue_several (several : t.offsetScale? = none) : readValue t = exact.value t := by
  rw [readValue, several]

theorem readValue_lone (lone : t.offsetScale? = some scale) : readValue t = scale.toMetric t.amount := by
  rw [readValue, lone]

theorem value_reduce_eq (sound : Sound exact q.units) (tidied : q.tidy = .ok t) (h : exact.reduce q = .ok s) :
    Sound exact s.units ∧ exact.value s = readValue t := by
  cases shape : t.offsetScale? with
  | none =>
    obtain ⟨inside, kept⟩ := value_reduce builtin_indexed exact_acyclic exact_plain exact_regular sound tidied shape h
    refine ⟨inside, ?_⟩
    rw [kept, readValue_several shape]
    exact (value_tidy builtin_indexed.toNumbered exact_valued.nonzero sound tidied).symm
  | some scale =>
    have read := reduce_lone sound.covers tidied shape
    rw [h] at read
    rw [Except.ok.inj read, value_kelvins, Scalar.one_eq, mul_one, readValue_lone shape]
    refine ⟨⟨covers_singleton.mpr Builtin.kelvin_mem, ?_⟩, rfl⟩
    rw [List.forall_mem_singleton]
    nofun

/-! ### Not both factors stand alone -/

theorem inverse_tidy (covers : exact.Covers q.units) (inverted : q.inverse = .ok i) : i.tidy = .ok i := by
  obtain ⟨us, scaled, tidied⟩ := inverse_ok inverted
  have inside : exact.Covers us := covers_scaled scaled covers
  exact tidy_fixed (tidy_shape (q := ⟨_, us⟩) builtin_indexed.toNumbered inside tidied)

theorem dimensionOf_lone (covers : exact.Covers q.units) (tidied : q.tidy = .ok t)
    (lone : t.offsetScale? = some scale) : exact.dimensionOf q "K" = 1 := by
  have read := reduce_lone covers tidied lone
  rw [← dimension_reduce builtin_indexed exact_acyclic covers read, dimensionOf, weigh_singleton,
    dimension_irreducible Builtin.kelvin_mem rfl]
  rfl

/-- A quantity and its inverse have opposite dimensions, so not both are read off a scale. -/
theorem several_of_inverse_lone (covers : exact.Covers q.units) (tidied : q.tidy = .ok t)
    (inverted : q.inverse = .ok i) (lone : i.offsetScale? = some scale) : t.offsetScale? = none := by
  cases shape : t.offsetScale? with
  | none => rfl
  | some scale' =>
    have one := dimensionOf_lone covers tidied shape
    have minus := dimensionOf_lone (covers_inverse covers inverted) (inverse_tidy covers inverted) lone
    rw [dimension_inverse builtin_indexed covers inverted, Pi.neg_apply, one] at minus
    cases minus

/-! ### The product -/

/-- By how much reduction misses the value of a tidy quantity. -/
def readingFactor (t : Quantity Rat) : Rat :=
  readValue t / exact.value t

theorem readingFactor_lone (covers : exact.Covers t.units) (lone : t.offsetScale? = some scale) :
    readingFactor t = scale.toMetric t.amount / (t.amount * scale.slope) := by
  rw [readingFactor, readValue_lone lone, value_lone covers lone]

theorem readingFactor_eq_one_iff (covers : exact.Covers t.units) (worthwhile : exact.value t ≠ 0) :
    readingFactor t = 1 ↔ t.offsetScale? = none := by
  rw [readingFactor, div_eq_one_iff_eq worthwhile]
  cases shape : t.offsetScale? with
  | none => exact ⟨fun _ => rfl, fun _ => readValue_several shape⟩
  | some scale =>
    have genuine := genuine_of_lone covers shape
    rw [readValue_lone shape, value_lone covers shape, genuine.affine]
    exact ⟨fun same => absurd (left_eq_add.mp same.symm) genuine.offset, nofun⟩

theorem amount_multiply_inverse (sound : Sound exact q.units) (nonzero : q.amount ≠ 0) (tidied : q.tidy = .ok t)
    (inverted : q.inverse = .ok i) (multiplied : exact.multiply q i = .ok p) :
    exact.value t ≠ 0 ∧ exact.value i ≠ 0 ∧ p.units = [] ∧ p.amount = readingFactor t * readingFactor i := by
  have inside : Sound exact i.units := sound.of_origin fun w member => inverse_origin inverted member
  have kept : exact.value t = exact.value q :=
    value_tidy builtin_indexed.toNumbered exact_valued.nonzero sound tidied
  have worthwhile : exact.value t ≠ 0 := by
    rw [kept]
    exact mul_ne_zero nonzero (worth_ne_zero exact_valued.nonzero sound)
  have reciprocal : exact.value i = 1 / exact.value t := by
    rw [kept]
    exact value_inverse_eq exact_valued sound inverted
  have worthwhile' : exact.value i ≠ 0 := by
    rw [reciprocal]
    exact one_div_ne_zero worthwhile
  have cancel : exact.dimensionOf q + exact.dimensionOf i = 0 := by
    rw [dimension_inverse builtin_indexed sound.covers inverted, add_neg_cancel]
  have units := multiply_dimensionless builtin_indexed exact_acyclic sound.covers inside.covers cancel multiplied
  obtain ⟨s, s', first, second, product⟩ := multiply_ok multiplied
  obtain ⟨hs, left⟩ := value_reduce_eq sound tidied first
  obtain ⟨hs', right⟩ := value_reduce_eq inside (inverse_tidy sound.covers inverted) second
  have amount : p.amount = readValue t * readValue i := by
    have value := value_product exact_valued hs hs' product
    rwa [left, right, Registry.value, valueBy, units, worth_nil, mul_one] at value
  refine ⟨worthwhile, worthwhile', units, ?_⟩
  rw [amount, readingFactor, readingFactor, div_mul_div_comm, reciprocal, mul_one_div_cancel worthwhile, div_one]

/-! ### Degrees Celsius -/

def minusOne : Exponent := ⟨-1, by decide, by decide⟩

/-- `x` degrees Celsius to the power `e` -/
def celsius (x : Rat) (e : Exponent) : Quantity Rat :=
  ⟨x, [⟨Builtin.celsius, none, e⟩]⟩

theorem celsius_sound (x : Rat) (e : Exponent) : Sound exact (celsius x e).units := by
  refine ⟨covers_singleton.mpr Builtin.celsius_mem, ?_⟩
  rw [celsius, List.forall_mem_singleton]
  nofun

theorem celsius_tidy (x : Rat) {e : Exponent} (nonzero : e.val ≠ 0) : (celsius x e).tidy = .ok (celsius x e) :=
  tidy_fixed (tidy_singleton nonzero)

theorem celsius_inverse (x : Rat) : (celsius x 1).inverse = .ok (celsius (1 / x) minusOne) := by
  refine bind_ok_iff.mpr ⟨[⟨Builtin.celsius, none, minusOne⟩], rfl, ?_⟩
  rw [Scalar.one_eq]
  exact celsius_tidy (1 / x) (by decide)

theorem reduce_celsius (x : Rat) :
    exact.reduce (celsius x 1) = .ok ⟨Scale.celsiusToKelvin x * Scalar.one, [⟨Builtin.kelvin, none, 1⟩]⟩ :=
  reduce_lone (celsius_sound x 1).covers (celsius_tidy x one_ne_zero) rfl

theorem reduce_perCelsius (x : Rat) :
    ∃ y, exact.reduce (celsius x minusOne) = .ok ⟨y, [⟨Builtin.kelvin, none, minusOne⟩]⟩ := by
  let u : Factor Rat := ⟨Builtin.celsius, none, minusOne⟩
  obtain ⟨y, expanded⟩ : ∃ y, exact.expand x u = .ok (y, [⟨Builtin.kelvin, none, minusOne⟩]) :=
    ⟨_, expand_reducible (u := u) rfl builtin_parse_kelvin rfl⟩
  have all : exact.expandAll x [u] = .ok (y, [⟨Builtin.kelvin, none, minusOne⟩]) := expandAll_singleton expanded
  have shape : Tidy [(⟨Builtin.kelvin, none, minusOne⟩ : Factor Rat)] := tidy_singleton (by decide)
  have passed : exact.pass (celsius x minusOne) = .ok ⟨y, [⟨Builtin.kelvin, none, minusOne⟩]⟩ :=
    (pass_factors (q := celsius x minusOne) rfl all).trans (tidy_fixed shape)
  refine ⟨y, reduce_of_pass (celsius_tidy x (by decide)) (List.mem_singleton_self u) rfl passed ?_⟩
  rw [List.forall_mem_singleton]
  rfl

theorem multiply_celsius : ∃ p, exact.multiply (celsius 20 1) (celsius (1 / 20) minusOne) = .ok p := by
  obtain ⟨y, second⟩ := reduce_perCelsius (1 / 20)
  exact ⟨_, bind_ok_iff.mpr ⟨_, reduce_celsius 20, bind_ok_iff.mpr ⟨_, second, rfl⟩⟩⟩

/-! ### The law and its failure -/

/-- The product of a quantity and its inverse is dimensionless. It is one unless one of the two is a
lone scale with an offset: then it is the reading of that one against its amount as a difference. -/
theorem exact_multiply_inverse (sound : Sound exact q.units) (nonzero : q.amount ≠ 0) (tidied : q.tidy = .ok t)
    (inverted : q.inverse = .ok i) (multiplied : exact.multiply q i = .ok p) :
    exact.divide q q = .ok p ∧ p.units = [] ∧
      (p.amount = 1 ↔ t.offsetScale? = none ∧ i.offsetScale? = none) ∧
      ∀ lone scale, lone = t ∨ lone = i → lone.offsetScale? = some scale →
        p.amount = scale.toMetric lone.amount / (lone.amount * scale.slope) := by
  obtain ⟨first, second, units, amount⟩ := amount_multiply_inverse sound nonzero tidied inverted multiplied
  have within : exact.Covers t.units := tidy_covers sound.covers tidied
  have inside : exact.Covers i.units := covers_inverse sound.covers inverted
  refine ⟨bind_ok_iff.mpr ⟨i, inverted, multiplied⟩, units, ?_⟩
  cases shape : i.offsetScale? with
  | none =>
    rw [(readingFactor_eq_one_iff inside second).mpr shape, mul_one] at amount
    rw [amount, readingFactor_eq_one_iff within first]
    refine ⟨by simp, ?_⟩
    rintro lone scale (rfl | rfl) found
    · exact readingFactor_lone within found
    · rw [shape] at found
      cases found
  | some scale =>
    have several := several_of_inverse_lone sound.covers tidied inverted shape
    rw [(readingFactor_eq_one_iff within first).mpr several, one_mul] at amount
    rw [amount, readingFactor_eq_one_iff inside second, shape]
    refine ⟨by simp, ?_⟩
    rintro lone scale' (rfl | rfl) found
    · rw [several] at found
      cases found
    · exact readingFactor_lone inside found

theorem exact_multiply_inverse_samples :
    (∃ p, exact.divide density density = .ok p ∧ p.units = [] ∧ p.amount = 1) ∧
      ∃ p, exact.divide (celsius 20 1) (celsius 20 1) = .ok p ∧ p.units = [] ∧
        p.amount = Scale.celsiusToKelvin 20 /
          (20 * OffsetScale.slope ⟨"K", Scale.celsiusToKelvin, Scale.kelvinToCelsius⟩) := by
  constructor
  · obtain ⟨i, inverted⟩ := isOk_iff.mp (show density.inverse.isOk = true by decide +kernel)
    obtain ⟨t, tidied⟩ := isOk_iff.mp (show density.tidy.isOk = true by decide +kernel)
    obtain ⟨p, divided⟩ := isOk_iff.mp (show (exact.divide density density).isOk = true by decide +kernel)
    obtain ⟨i', same, multiplied⟩ := divide_ok divided
    obtain rfl : i = i' := Except.ok.inj (inverted.symm.trans same)
    obtain ⟨-, units, one, -⟩ :=
      exact_multiply_inverse density_sound (by decide) tidied inverted multiplied
    refine ⟨p, divided, units, one.mpr ⟨several_of_linear density_linear tidied, ?_⟩⟩
    exact several_of_linear (linear_inverse density_linear inverted) (inverse_tidy density_sound.covers inverted)
  · obtain ⟨p, multiplied⟩ := multiply_celsius
    obtain ⟨divided, units, -, reading⟩ := exact_multiply_inverse (celsius_sound 20 1) (by decide)
      (celsius_tidy 20 one_ne_zero) (celsius_inverse 20) multiplied
    exact ⟨p, divided, units, reading _ _ (.inl rfl) rfl⟩

/-- Twenty degrees Celsius divided by themselves are not one. -/
theorem divide_celsius :
    ∃ s i p, exact.reduce (celsius 20 1) = .ok s ∧ s.amount ≠ 0 ∧ (celsius 20 1).inverse = .ok i ∧
      exact.multiply (celsius 20 1) i = .ok p ∧ exact.divide (celsius 20 1) (celsius 20 1) = .ok p ∧
      p.amount = Scale.celsiusToKelvin 20 / 20 ∧ p.amount ≠ 1 := by
  obtain ⟨p, multiplied⟩ := multiply_celsius
  obtain ⟨-, difference, -, amount⟩ := amount_multiply_inverse (celsius_sound 20 1) (by decide)
    (celsius_tidy 20 one_ne_zero) (celsius_inverse 20) multiplied
  have quotient : p.amount = Scale.celsiusToKelvin 20 / 20 := by
    have slope : (20 : Rat) * OffsetScale.slope ⟨"K", Scale.celsiusToKelvin, Scale.kelvinToCelsius⟩ = 20 := by
      decide +kernel
    rw [amount, (readingFactor_eq_one_iff (celsius_sound _ _).covers difference).mpr rfl, mul_one,
      readingFactor_lone (celsius_sound 20 1).covers rfl]
    exact congrArg (Scale.celsiusToKelvin 20 / ·) slope
  refine ⟨_, _, p, reduce_celsius 20, by decide +kernel, celsius_inverse 20, multiplied,
    bind_ok_iff.mpr ⟨_, celsius_inverse 20, multiplied⟩, quotient, ?_⟩
  rw [quotient]
  decide +kernel

end Metrology.Registry
