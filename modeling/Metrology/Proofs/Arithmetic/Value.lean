import Metrology.Proofs.Arithmetic.Dimension
import Metrology.Proofs.Reduction.OffsetScale
import Metrology.Proofs.Reduction.Value

/-!
Arithmetic on exact quantities is arithmetic on their values, where no unit is a scale with an
offset.
-/

namespace Metrology.Registry
open Outcome Quantity

variable {r : Registry Rat} {a b c q s t : Quantity Rat}

/-- No unit of the quantity is a scale with an offset. -/
def Linear (q : Quantity Rat) : Prop :=
  ∀ u ∈ q.units, u.base.definition.offsetScale? = none

theorem several_of_linear (linear : Linear q) (tidied : q.tidy = .ok t) : t.offsetScale? = none := by
  refine offsetScale?_of_linear ?_
  intro w member
  obtain ⟨v, origin, base, -⟩ := tidy_origin tidied member
  rw [base]
  exact linear v origin

theorem linear_inverse (linear : Linear q) (inverted : q.inverse = .ok t) : Linear t := by
  intro w member
  obtain ⟨v, origin, base, -⟩ := inverse_origin inverted member
  rw [base]
  exact linear v origin

/-- What value arithmetic needs of a registry. -/
structure Valued (r : Registry Rat) : Prop where
  indexed : r.Indexed
  acyclic : r.Acyclic
  plain : r.Plain
  regular : r.Regular

theorem Valued.nonzero (valued : r.Valued) : ∀ u ∈ r.units, r.scale u ≠ 0 :=
  scale_ne_zero valued.indexed valued.regular

theorem value_reduce_linear (valued : r.Valued) (sound : Sound r q.units) (linear : Linear q)
    (h : r.reduce q = .ok t) : Sound r t.units ∧ r.value t = r.value q := by
  obtain ⟨tidied, -, first, -, -⟩ := reduce_ok h
  exact value_reduce valued.indexed valued.acyclic valued.plain valued.regular sound first
    (several_of_linear linear first) h

theorem value_product (valued : r.Valued) (hs : Sound r s.units) (ht : Sound r t.units)
    (h : Quantity.tidy ⟨s.amount * t.amount, s.units ++ t.units⟩ = .ok q) :
    r.value q = r.value s * r.value t := by
  rw [value, value_tidy (q := ⟨_, s.units ++ t.units⟩) valued.indexed.toNumbered valued.nonzero
    (sound_append.mpr ⟨hs, ht⟩) h]
  show s.amount * t.amount * worth r.scale (s.units ++ t.units) =
    s.amount * worth r.scale s.units * (t.amount * worth r.scale t.units)
  rw [worth_append]
  ring

theorem value_multiply (valued : r.Valued) (ha : Sound r a.units) (hb : Sound r b.units) (la : Linear a)
    (lb : Linear b) (h : r.multiply a b = .ok q) : r.value q = r.value a * r.value b := by
  obtain ⟨s, t, first, second, tidied⟩ := multiply_ok h
  obtain ⟨hs, left⟩ := value_reduce_linear valued ha la first
  obtain ⟨ht, right⟩ := value_reduce_linear valued hb lb second
  rw [← left, ← right]
  exact value_product valued hs ht tidied

theorem value_inverse_eq (valued : r.Valued) (ha : Sound r a.units) (h : a.inverse = .ok q) :
    r.value q = 1 / r.value a := by
  rw [value, value_inverse valued.indexed.toNumbered valued.nonzero ha h, one_div]
  rfl

theorem value_divide (valued : r.Valued) (ha : Sound r a.units) (hb : Sound r b.units) (la : Linear a)
    (lb : Linear b) (h : r.divide a b = .ok q) : r.value q = r.value a / r.value b := by
  obtain ⟨c, inverted, multiplied⟩ := divide_ok h
  have hc : Sound r c.units := hb.of_origin fun w member => inverse_origin inverted member
  rw [value_multiply valued ha hc la (linear_inverse lb inverted) multiplied, value_inverse_eq valued hb inverted,
    mul_one_div]

theorem value_power (valued : r.Valued) (ha : Sound r a.units) {n : Exponent} (h : a.pow n = .ok q) :
    r.value q = r.value a ^ n.val :=
  value_pow valued.indexed.toNumbered valued.nonzero ha h

theorem value_add (valued : r.Valued) (ha : Sound r a.units) (hb : Sound r b.units) (la : Linear a)
    (lb : Linear b) (h : r.add a b = .ok q) : r.value q = r.value a + r.value b := by
  obtain ⟨s, t, first, second, same, rfl⟩ := add_ok h
  obtain ⟨hs, left⟩ := value_reduce_linear valued ha la first
  obtain ⟨ht, right⟩ := value_reduce_linear valued hb lb second
  have units : worth r.scale s.units = worth r.scale t.units := worth_of_beq valued.indexed.toNumbered hs ht same
  rw [← left, ← right]
  show (s.amount + t.amount) * worth r.scale s.units =
    s.amount * worth r.scale s.units + t.amount * worth r.scale t.units
  rw [← units, add_mul]

/-! ### The built-in units -/

theorem exact_valued : exact.Valued :=
  ⟨builtin_indexed, exact_acyclic, exact_plain, exact_regular⟩

/-- Over the exact built-in units a reduction keeps the value of a quantity, or reads off the scale
with an offset that it is; and the operations act on values as on rational numbers. -/
theorem exact_value {a b : Quantity Rat} (ha : Sound exact a.units) (hb : Sound exact b.units) (n : Exponent) :
    (∀ t s, a.tidy = .ok t → exact.reduce a = .ok s →
      (t.offsetScale? = none → exact.value s = exact.value a) ∧
      (∀ scale, t.offsetScale? = some scale → s.amount = scale.toMetric t.amount)) ∧
    (Linear a → Linear b →
      (∀ q, exact.multiply a b = .ok q → exact.value q = exact.value a * exact.value b) ∧
      (∀ q, exact.divide a b = .ok q → exact.value q = exact.value a / exact.value b) ∧
      (∀ q, a.inverse = .ok q → exact.value q = 1 / exact.value a) ∧
      (∀ q, a.pow n = .ok q → exact.value q = exact.value a ^ n.val) ∧
      (∀ q, exact.add a b = .ok q → exact.value q = exact.value a + exact.value b)) := by
  constructor
  · intro t s tidied reduced
    constructor
    · intro several
      exact (value_reduce builtin_indexed exact_acyclic exact_plain exact_regular ha tidied several reduced).2
    · intro scale lone
      have read := reduce_lone ha.covers tidied lone
      rw [reduced] at read
      rw [Except.ok.inj read, Scalar.one_eq, mul_one]
  · intro la lb
    refine ⟨?_, ?_, ?_, ?_, ?_⟩
    · exact fun q multiplied => value_multiply exact_valued ha hb la lb multiplied
    · exact fun q divided => value_divide exact_valued ha hb la lb divided
    · exact fun q inverted => value_inverse_eq exact_valued ha inverted
    · exact fun q raised => value_power exact_valued ha raised
    · exact fun q added => value_add exact_valued ha hb la lb added

/-- `3 mg/km³` -/
def density : Quantity Rat :=
  ⟨3, [⟨Builtin.gram, Prefix.named? "m", 1⟩,
    ⟨Builtin.metre, Prefix.named? "k", ⟨-3, by decide, by decide⟩⟩]⟩

theorem density_sound : Sound exact density.units := by
  have kilo : ∀ p ∈ (Prefix.named? "k" : Option (Prefix Rat)), p ∈ Prefix.all :=
    fun p chosen => Prefix.mem_of_named? chosen
  have milli : ∀ p ∈ (Prefix.named? "m" : Option (Prefix Rat)), p ∈ Prefix.all :=
    fun p chosen => Prefix.mem_of_named? chosen
  constructor
  · rw [density, covers_cons, covers_cons]
    exact ⟨Builtin.gram_mem, Builtin.metre_mem, covers_nil⟩
  · rw [density, List.forall_mem_cons, List.forall_mem_singleton]
    exact ⟨milli, kilo⟩

theorem density_linear : Linear density := by
  intro u member
  rcases List.mem_cons.mp member with rfl | member
  · rfl
  · rw [List.mem_singleton.mp member]
    rfl

theorem exact_value_density :
    (∃ s, exact.reduce density = .ok s ∧ exact.value s = exact.value density) ∧
      (∃ q, exact.multiply density density = .ok q ∧
        exact.value q = exact.value density * exact.value density) ∧
      ∃ q, exact.add density density = .ok q ∧
        exact.value q = exact.value density + exact.value density := by
  obtain ⟨s, reduced⟩ := isOk_iff.mp (show (exact.reduce density).isOk = true by decide +kernel)
  obtain ⟨p, product⟩ := isOk_iff.mp
    (show (exact.multiply density density).isOk = true by decide +kernel)
  obtain ⟨q, sum⟩ := isOk_iff.mp (show (exact.add density density).isOk = true by decide +kernel)
  obtain ⟨t, -, tidied, -, -⟩ := reduce_ok reduced
  obtain ⟨reduction, operations⟩ := exact_value density_sound density_sound 1
  obtain ⟨multiply, -, -, -, add⟩ := operations density_linear density_linear
  have kept := (reduction t s tidied reduced).1 (several_of_linear density_linear tidied)
  exact ⟨⟨s, reduced, kept⟩, ⟨p, product, multiply p product⟩, q, sum, add q sum⟩

end Metrology.Registry
