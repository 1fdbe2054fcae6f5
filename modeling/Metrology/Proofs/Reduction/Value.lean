import Metrology.Proofs.Reduction.Amount
import Metrology.Proofs.Registry.Scale

/-!
Reduction keeps the value of an exact quantity. Expanding a factor multiplies the amount by what
the factor is worth and its replacement is not; a lone scale with an offset is the only exception,
and no pass but the first can meet one. Main statement: `value_reduce`.
-/

namespace Metrology.Registry
open Outcome Quantity

variable {r : Registry Rat} {q t start : Quantity Rat} {u gram : Factor Rat} {us vs : List (Factor Rat)}
  {x y v : Rat} {f : BaseUnit Rat → Rat}

/-! ### One pass -/

theorem value_scaledDefinition (indexed : r.Indexed) (acyclic : r.Acyclic) (member : u.base ∈ r.units)
    {metric : String} (defined : u.base.definition.metric? = some metric) (parsed : r.parse metric = .ok q) :
    valueBy r.scale (scaledDefinition u q) = u.multiplier * r.scale u.base := by
  rw [scale_reducible indexed acyclic member defined parsed]
  show q.amount * (u.multiplier * u.base.definition.slope) * worth r.scale q.units =
    u.multiplier * (u.base.definition.slope * (q.amount * worth r.scale q.units))
  ring

theorem value_irreducible (irreducible : u.base.definition.metric? = none) :
    (u.pre.elim x fun p => x * Scalar.pow p.multiplier u.exponent.val) *
      Factor.worth r.scale { u with pre := none } = x * u.worth r.scale := by
  rw [Factor.worth, Factor.worth, scale_irreducible irreducible, mul_one, mul_one]
  show _ * (Scalar.one : Rat) ^ u.exponent.val = _
  rw [Scalar.one_eq, one_zpow, mul_one, Factor.multiplier]
  cases u.pre with
  | none =>
    show x = x * (Scalar.one : Rat) ^ u.exponent.val
    rw [Scalar.one_eq, one_zpow, mul_one]
  | some p =>
    show x * Scalar.pow p.multiplier u.exponent.val = x * p.multiplier ^ u.exponent.val
    rw [Scalar.pow_eq_zpow]

theorem value_expand (indexed : r.Indexed) (acyclic : r.Acyclic) (regular : r.Regular) (sound : Sound r [u])
    (h : r.expand x u = .ok (y, vs)) : Sound r vs ∧ y * worth r.scale vs = x * u.worth r.scale := by
  obtain ⟨member, -⟩ := sound.head
  rcases expand_ok h with ⟨irreducible, rfl, rfl⟩ | ⟨metric, q, power, defined, parsed, raised, rfl, rfl⟩
  · refine ⟨⟨?_, ?_⟩, by rw [worth_singleton]; exact value_irreducible irreducible⟩
    · exact covers_singleton.mpr member
    · rintro w single p chosen
      rw [List.mem_singleton.mp single] at chosen
      cases chosen
  · have inside : Sound r q.units := sound_parse indexed regular parsed
    refine ⟨sound_pow (q := scaledDefinition u q) inside raised, ?_⟩
    have value := value_pow (q := scaledDefinition u q) indexed.toNumbered
      (scale_ne_zero indexed regular) inside raised
    rw [value_scaledDefinition indexed acyclic member defined parsed, valueBy] at value
    rw [mul_assoc, value, Factor.worth]

theorem value_expandAll (indexed : r.Indexed) (acyclic : r.Acyclic) (regular : r.Regular) (sound : Sound r us)
    (h : r.expandAll x us = .ok (y, vs)) : Sound r vs ∧ y * worth r.scale vs = x * worth r.scale us := by
  induction us generalizing x vs with
  | nil =>
    cases h
    exact ⟨sound, rfl⟩
  | cons u us ih =>
    obtain ⟨z, front, back, first, rest, rfl⟩ := expandAll_cons_ok h
    obtain ⟨hu, hus⟩ := sound_append.mp (show Sound r ([u] ++ us) from sound)
    obtain ⟨hfront, here⟩ := value_expand indexed acyclic regular hu first
    obtain ⟨hback, there⟩ := ih hus rest
    refine ⟨sound_append.mpr ⟨hfront, hback⟩, ?_⟩
    calc y * worth r.scale (front ++ back)
        = y * worth r.scale back * worth r.scale front := by rw [worth_append]; ring
      _ = z * worth r.scale front * worth r.scale us := by rw [there]; ring
      _ = x * worth r.scale (u :: us) := by rw [here, worth_cons, mul_assoc]

theorem value_pass (indexed : r.Indexed) (acyclic : r.Acyclic) (regular : r.Regular) (sound : Sound r q.units)
    (several : q.offsetScale? = none) (h : r.pass q = .ok t) : Sound r t.units ∧ r.value t = r.value q := by
  rcases pass_ok h with ⟨scale, metric, lone, -, -⟩ | ⟨-, x, us, expanded, tidied⟩
  · rw [several] at lone
    cases lone
  · obtain ⟨inside, kept⟩ := value_expandAll indexed acyclic regular sound expanded
    refine ⟨sound_tidy (q := ⟨x, us⟩) inside tidied, ?_⟩
    rw [value, value_tidy (q := ⟨x, us⟩) indexed.toNumbered (scale_ne_zero indexed regular) inside tidied]
    exact kept

/-! ### All passes -/

/-- What the passes keep where no scale with an offset stands alone. -/
structure Worthwhile (r : Registry Rat) (v : Rat) (q : Quantity Rat) : Prop where
  sound : Sound r q.units
  several : q.offsetScale? = none
  value : r.value q = v

theorem worthwhile_pass (indexed : r.Indexed) (acyclic : r.Acyclic) (plain : r.Plain) (regular : r.Regular)
    (before : Worthwhile r v q) (h : r.pass q = .ok t) : Worthwhile r v t := by
  obtain ⟨sound, kept⟩ := value_pass indexed acyclic regular before.sound before.several h
  exact ⟨sound, pass_plain plain before.sound.covers h, kept.trans before.value⟩

/-! ### Kilograms -/

theorem worth_kilogram (gram : Factor Rat) (bare : gram.pre = none) :
    Factor.worth f { gram with pre := Prefix.named? "k" } = 1000 ^ gram.exponent.val * gram.worth f := by
  show ((Scalar.ofFloat 1e3 : Rat) * f gram.base) ^ gram.exponent.val = _
  rw [Scalar.ofFloat_kilo, mul_zpow, Factor.worth, Factor.multiplier, bare]
  show _ = _ * ((Scalar.one : Rat) * f gram.base) ^ gram.exponent.val
  rw [Scalar.one_eq, one_mul]

theorem worth_kilogramUnits (found : us.find? isGram = some gram) (bare : gram.pre = none) :
    worth f (kilogramUnits us) = 1000 ^ gram.exponent.val * worth f us := by
  obtain ⟨front, back, rfl, after⟩ := kilogramUnits_split found
  rw [after, worth_append, worth_append, worth_cons, worth_cons, worth_kilogram gram bare]
  ring

theorem value_restoreKilogram (bare : ∀ u ∈ q.units, u.pre = none) : r.value (restoreKilogram q) = r.value q := by
  unfold restoreKilogram
  split
  · rfl
  · rename_i gram found
    have thousand : (1000 : Rat) ^ gram.exponent.val ≠ 0 := zpow_ne_zero _ (by norm_num)
    rw [value, valueBy, worth_kilogramUnits found (bare gram (List.mem_of_find?_eq_some found)),
      Scalar.pow_eq_zpow, Scalar.ofFloat_thousand, ← mul_assoc, div_mul_cancel₀ _ thousand]
    rfl

theorem sound_kilogramUnits (sound : Sound r us) : Sound r (kilogramUnits us) := by
  induction us with
  | nil => exact sound
  | cons u us ih =>
    have tail := sound.tail
    rw [kilogramUnits]
    split
    · have kilo : ∀ p ∈ (Prefix.named? "k" : Option (Prefix Rat)), p ∈ Prefix.all :=
        fun p chosen => Prefix.mem_of_named? chosen
      exact ⟨covers_cons.mpr ⟨sound.head.1, tail.covers⟩, List.forall_mem_cons.mpr ⟨kilo, tail.tabled⟩⟩
    · have after := ih tail
      exact ⟨covers_cons.mpr ⟨sound.head.1, after.covers⟩, List.forall_mem_cons.mpr ⟨sound.head.2, after.tabled⟩⟩

theorem sound_restoreKilogram (sound : Sound r q.units) : Sound r (restoreKilogram q).units := by
  unfold restoreKilogram
  split
  · exact sound
  · exact sound_kilogramUnits sound

/-- A reduction keeps the value, unless the tidy quantity is a lone scale with an offset. -/
theorem value_reduce (indexed : r.Indexed) (acyclic : r.Acyclic) (plain : r.Plain) (regular : r.Regular)
    (sound : Sound r q.units) {tidied : Quantity Rat} (first : q.tidy = .ok tidied)
    (several : tidied.offsetScale? = none) (h : r.reduce q = .ok t) :
    Sound r t.units ∧ r.value t = r.value q := by
  obtain ⟨tidied', reduced, same, passed, rfl⟩ := reduce_ok h
  obtain rfl : tidied = tidied' := Except.ok.inj (first.symm.trans same)
  have kept : r.value tidied = r.value q :=
    value_tidy indexed.toNumbered (scale_ne_zero indexed regular) sound first
  obtain ⟨after, canonical⟩ := passes_induction
    (fun _ _ before step => worthwhile_pass indexed acyclic plain regular before step)
    (Worthwhile.mk (sound_tidy sound first) several kept) passed
  refine ⟨sound_restoreKilogram after.sound, ?_⟩
  rw [value_restoreKilogram fun u member => (Factor.isCanonical_iff.mp (canonical u member)).2]
  exact after.value

/-! ### Multiples -/

theorem scaling_mul (k : Rat) : Scaling fun x y : Rat => y = k * x := by
  constructor
  · intro x y c scaled
    rw [scaled, mul_assoc]
  · intro x y c scaled
    rw [scaled, mul_div_assoc]

theorem reduce_scaled (indexed : r.Indexed) (plain : r.Plain) (k : Rat) (covers : r.Covers q.units)
    {tidied : Quantity Rat} (first : q.tidy = .ok tidied) (several : tidied.offsetScale? = none)
    (h : r.reduce q = .ok t) : r.reduce ⟨k * q.amount, q.units⟩ = .ok ⟨k * t.amount, t.units⟩ := by
  have lone : ∀ t', q.tidy = .ok t' → ∀ scale ∈ t'.offsetScale?, ∀ y, y = k * t'.amount →
      scale.toMetric y = k * scale.toMetric t'.amount := by
    intro t' same scale offset
    obtain rfl : tidied = t' := Except.ok.inj (first.symm.trans same)
    rw [several] at offset
    cases offset
  obtain ⟨y, reduced, scaled⟩ := reduce_related indexed plain (scaling_mul k) covers rfl lone h
  rw [reduced, scaled]

end Metrology.Registry
