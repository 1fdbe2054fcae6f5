import Mathlib.Tactic.LinearCombination
import Metrology.Proofs.Arithmetic.Inverse

/-!
Conversion of exact quantities. A converted quantity reduces to what its source reduces to, whichever
rule gave its amount (`exact_convert`). A bare number loses the factor that tidying its target moved
into the amount, so converting back multiplies by the factors of both expressions
(`exact_convertAmount`).
-/

namespace Metrology.Registry
open Outcome Quantity

variable {q t c s r p p' t' : Quantity Rat} {text source target : String} {x y k : Rat}
  {us : List (Factor Rat)}

/-! ### Reduction of exact quantities -/

theorem reduce_ne_zero (sound : Sound exact q.units) (nonzero : q.amount ≠ 0) (tidied : q.tidy = .ok t)
    (several : t.offsetScale? = none) (h : exact.reduce q = .ok s) : s.amount ≠ 0 := by
  have kept : exact.value s = exact.value q :=
    (value_reduce builtin_indexed exact_acyclic exact_plain exact_regular sound tidied several h).2
  have worthwhile : exact.value s ≠ 0 := by
    rw [kept]
    exact mul_ne_zero nonzero (worth_ne_zero exact_valued.nonzero sound)
  exact left_ne_zero_of_mul worthwhile

/-- A quantity and its tidy form have one reduction. -/
theorem reduce_tidied (covers : exact.Covers q.units) (tidied : q.tidy = .ok t) :
    exact.reduce q = .ok s ↔ exact.reduce t = .ok s := by
  have again : t.tidy = .ok t := tidy_fixed (tidy_shape builtin_indexed.toNumbered covers tidied)
  constructor
  · intro h
    obtain ⟨t', reduced, first, passed, rfl⟩ := reduce_ok h
    obtain rfl : t = t' := Except.ok.inj (tidied.symm.trans first)
    exact bind_ok_iff.mpr ⟨t, again, bind_ok_iff.mpr ⟨reduced, passes_spare t le_rfl passed, rfl⟩⟩
  · intro h
    obtain ⟨t', reduced, first, passed, rfl⟩ := reduce_ok h
    obtain rfl : t = t' := Except.ok.inj (again.symm.trans first)
    exact bind_ok_iff.mpr ⟨t, tidied, bind_ok_iff.mpr ⟨reduced, passes_spare q le_rfl passed, rfl⟩⟩

/-! ### A conversion keeps what is measured -/

/-- Either rule for the amount undoes the reduction of the target. -/
theorem reduce_converted (sound : Sound exact us) (shape : Tidy us) (reduces : exact.reduce ⟨1, us⟩ = .ok c)
    (same : s.units = c.units) : exact.reduce ⟨convertedAmount ⟨1, us⟩ s c, us⟩ = .ok s := by
  have tidied : ∀ x, Quantity.tidy ⟨x, us⟩ = .ok (⟨x, us⟩ : Quantity Rat) := fun x => tidy_fixed shape
  unfold convertedAmount
  cases lone : (⟨1, us⟩ : Quantity Rat).offsetScale? with
  | none =>
    have nonzero : c.amount ≠ 0 := reduce_ne_zero (q := ⟨1, us⟩) sound one_ne_zero (tidied 1) lone reduces
    have scaled :=
      reduce_scaled builtin_indexed exact_plain (s.amount / c.amount) sound.covers (tidied 1) lone reduces
    rwa [mul_one, div_mul_cancel₀ _ nonzero, ← same] at scaled
  | some scale =>
    have genuine : scale.Genuine := genuine_of_lone (q := ⟨1, us⟩) sound.covers lone
    have kelvins := reduce_lone (q := ⟨1, us⟩) sound.covers (tidied 1) lone
    rw [reduces] at kelvins
    have units : s.units = [⟨Builtin.kelvin, none, 1⟩] := by rw [same, Except.ok.inj kelvins]
    rw [reduce_lone (q := ⟨scale.fromMetric s.amount, us⟩) sound.covers (tidied _) lone,
      genuine.toMetric_fromMetric, Scalar.one_eq, mul_one, ← units]

theorem convert_reduces (covers : exact.Covers q.units) (h : exact.convert q text = .ok r) :
    ∃ p t s, exact.parse text = .ok p ∧ p.tidy = .ok t ∧ r.units = t.units ∧
      exact.reduce q = .ok s ∧ exact.reduce r = .ok s := by
  obtain ⟨target, s, c, aimed, first, second, same, rfl⟩ := convert_ok h
  obtain ⟨p, t, parsed, tidied, rfl⟩ := parseTarget_ok aimed
  rw [Scalar.one_eq] at second
  have written : Sound exact p.units := sound_parse builtin_indexed exact_regular parsed
  have sound : Sound exact t.units := sound_tidy written tidied
  have shape : Tidy t.units := tidy_shape builtin_indexed.toNumbered written.covers tidied
  have inside : exact.Covers (⟨1, t.units⟩ : Quantity Rat).units := sound.covers
  have dimension : exact.dimensionOf q = exact.dimensionOf ⟨1, t.units⟩ :=
    (sameUnits_iff builtin_indexed exact_acyclic covers inside first second).mp same
  have units : s.units = c.units :=
    units_eq_of_dimension builtin_indexed exact_acyclic covers inside first second dimension
  rw [Scalar.one_eq]
  exact ⟨p, t, s, parsed, tidied, rfl, first, reduce_converted sound shape second units⟩

theorem convert_again (h : exact.convert q text = .ok r) (first : exact.reduce q = .ok s)
    (again : exact.reduce r = .ok s) : exact.convert r text = .ok r := by
  obtain ⟨t, s', c, aimed, first', second, same, rfl⟩ := convert_ok h
  obtain rfl : s = s' := Except.ok.inj (first.symm.trans first')
  exact convert_of_sameUnits aimed again second same

/-! ### Bare numbers -/

theorem convertAmount_ok (h : exact.convertAmount x source target = .ok y) :
    ∃ p r, exact.parse source = .ok p ∧ exact.convert ⟨p.amount * x, p.units⟩ target = .ok r ∧
      y = r.amount := by
  obtain ⟨q, first, h⟩ := bind_ok h
  obtain ⟨p, parsed, first⟩ := bind_ok first
  obtain ⟨r, converted, h⟩ := bind_ok h
  rw [pure_ok first] at converted
  exact ⟨p, r, parsed, converted, pure_ok h⟩

theorem readValue_injective (sound : Sound exact us) : Function.Injective fun x => readValue ⟨x, us⟩ := by
  intro x y same
  change readValue ⟨x, us⟩ = readValue ⟨y, us⟩ at same
  cases lone : (⟨x, us⟩ : Quantity Rat).offsetScale? with
  | none =>
    rw [readValue_several lone, readValue_several (t := ⟨y, us⟩) lone] at same
    exact mul_right_cancel₀ (worth_ne_zero exact_valued.nonzero sound) same
  | some scale =>
    have genuine : scale.Genuine := genuine_of_lone (q := ⟨x, us⟩) sound.covers lone
    rw [readValue_lone lone, readValue_lone (t := ⟨y, us⟩) lone] at same
    rw [← genuine.fromMetric_toMetric x, ← genuine.fromMetric_toMetric y, same]

/-- An expression without an amount, its quantity and the tidy form of that. -/
structure Spells (text : String) (p t : Quantity Rat) : Prop where
  units : isUnitList text = true
  parsed : exact.parse text = .ok p
  tidied : p.tidy = .ok t

namespace Spells

variable (spells : Spells text p t)
include spells

theorem amount : p.amount = 1 :=
  amount_of_isUnitList spells.units spells.parsed

theorem sound : Sound exact p.units :=
  sound_parse builtin_indexed exact_regular spells.parsed

theorem soundTidy : Sound exact t.units :=
  sound_tidy spells.sound spells.tidied

theorem scaled (x : Rat) : Quantity.tidy ⟨x, p.units⟩ = .ok ⟨x * t.amount, t.units⟩ := by
  obtain ⟨scale, amount, tidied⟩ := tidy_amount x spells.tidied
  rwa [amount, spells.amount, one_mul]

theorem near : Scalar.isNear Scalar.defaultTolerance p.amount Scalar.one = true := by
  rw [spells.amount, Scalar.one_eq]
  exact Scalar.isNear_refl _ _

/-- Whether the amount of an expression reduces does not depend on it, nor on tidying. -/
theorem reduces (x y : Rat) (h : exact.reduce ⟨x, t.units⟩ = .ok s) : ∃ s', exact.reduce ⟨y, p.units⟩ = .ok s' := by
  obtain ⟨z, reduced⟩ :=
    reduce_amount (q := ⟨x, t.units⟩) (y * t.amount) h
  exact ⟨_, (reduce_tidied (q := ⟨y, p.units⟩) spells.sound.covers (spells.scaled y)).mpr reduced⟩

end Spells

/-- A conversion as an operation on quantities: what it starts from and what it comes to reduce to the same. -/
theorem convertAmount_reduces (written : Spells source p t) (aimed : Spells target p' t')
    (h : exact.convertAmount x source target = .ok y) :
    exact.convert ⟨x, p.units⟩ target = .ok ⟨y, t'.units⟩ ∧
      ∃ s, exact.reduce ⟨x, p.units⟩ = .ok s ∧ exact.reduce ⟨y, t'.units⟩ = .ok s := by
  obtain ⟨p₁, ⟨z, us⟩, parsed, converted, rfl⟩ := convertAmount_ok h
  obtain rfl : p = p₁ := Except.ok.inj (written.parsed.symm.trans parsed)
  rw [written.amount, one_mul] at converted
  obtain ⟨p₂, t₂, s, parsed', tidied', units, first, again⟩ :=
    convert_reduces (q := ⟨x, p.units⟩) written.sound.covers converted
  obtain rfl : p' = p₂ := Except.ok.inj (aimed.parsed.symm.trans parsed')
  obtain rfl : t' = t₂ := Except.ok.inj (aimed.tidied.symm.trans tidied')
  obtain rfl : us = t'.units := units
  exact ⟨converted, s, first, again⟩

theorem readValue_convertAmount (written : Spells source p t) (aimed : Spells target p' t')
    (h : exact.convertAmount x source target = .ok y) :
    readValue ⟨y, t'.units⟩ = readValue ⟨x * t.amount, t.units⟩ := by
  obtain ⟨-, s, first, again⟩ := convertAmount_reduces written aimed h
  have shape : Tidy t'.units := tidy_shape builtin_indexed.toNumbered aimed.sound.covers aimed.tidied
  have before := value_reduce_eq (q := ⟨x, p.units⟩) written.sound (written.scaled x) first
  have after := value_reduce_eq (q := ⟨y, t'.units⟩) aimed.soundTidy (tidy_fixed shape) again
  exact after.2.symm.trans before.2

/-- Where a number converts, every number converts back. -/
theorem convertAmount_back (written : Spells source p t) (aimed : Spells target p' t')
    (h : exact.convertAmount x source target = .ok y) (k : Rat) :
    ∃ z, exact.convertAmount k target source = .ok z := by
  obtain ⟨converted, s, first, again⟩ := convertAmount_reduces written aimed h
  have kept : exact.dimensionOf ⟨y, t'.units⟩ = exact.dimensionOf p :=
    dimension_convert (a := ⟨x, p.units⟩) builtin_indexed exact_acyclic written.sound.covers converted
  obtain ⟨s₁, left⟩ := aimed.reduces y k again
  obtain ⟨s₂, right⟩ :=
    reduce_amount (q := ⟨x, p.units⟩) p.amount first
  have agree : exact.dimensionOf ⟨k, p'.units⟩ = exact.dimensionOf p := by
    rw [← kept]
    exact (weigh_tidy builtin_indexed.toNumbered aimed.sound.covers aimed.tidied).symm
  obtain ⟨q, back⟩ := (convert_iff (a := ⟨k, p'.units⟩) builtin_indexed exact_acyclic
    aimed.sound.covers left written.parsed written.near right).mpr agree
  refine ⟨q.amount, bind_ok_iff.mpr ⟨⟨k, p'.units⟩, ?_, bind_ok_iff.mpr ⟨q, back, rfl⟩⟩⟩
  refine bind_ok_iff.mpr ⟨p', aimed.parsed, ?_⟩
  rw [aimed.amount, one_mul]
  rfl

/-! ### A kilometre times a metre -/

def kilometreMetre (x : Rat) : Quantity Rat :=
  ⟨x, [⟨Builtin.metre, Prefix.named? "k", 1⟩, ⟨Builtin.metre, none, 1⟩]⟩

def squareMetres (x : Rat) : Quantity Rat :=
  ⟨x, [⟨Builtin.metre, none, ⟨2, by decide, by decide⟩⟩]⟩

theorem parse_kilometreMetre : exact.parse "km*m" = .ok (kilometreMetre 1) := by
  have scanned : Expression.scan? (Text.trim "km*m".toList) =
      some (.physical none [⟨.times, ['k', 'm'], none⟩, ⟨.times, ['m'], none⟩]) := by
    decide +kernel
  have kilometre : exact.readings[String.ofList ['k', 'm']]? = some ⟨Builtin.metre, Prefix.named? "k"⟩ := by
    rw [builtin_indexed.getElem?_readings, builtin_units]
    rfl
  have metre : exact.readings[String.ofList ['m']]? = some ⟨Builtin.metre, none⟩ := by
    rw [builtin_indexed.getElem?_readings, builtin_units]
    rfl
  simp only [parse, scanned, evaluate, List.mapM_cons, List.mapM_nil, resolveToken, resolve, kilometre, metre]
  rw [← Scalar.one_eq]
  rfl

/-- Tidying moves the kilo into the amount. -/
theorem tidy_kilometreMetre (x : Rat) : (kilometreMetre x).tidy = .ok (squareMetres (1000 * x)) := by
  let kilo : Rat := Scalar.pow (Scalar.ofFloat 1e3) 1
  have tidied : (kilometreMetre x).tidy =
      .ok (squareMetres (x * (Scalar.one * (kilo * Scalar.pow Scalar.one 1)))) := rfl
  have scale : (Scalar.one : Rat) * (kilo * Scalar.pow Scalar.one 1) = 1000 := by
    simp only [kilo, Scalar.pow_eq_zpow, Scalar.ofFloat_kilo, Scalar.one_eq, zpow_one, mul_one, one_mul]
  rw [tidied, scale, mul_comm]

theorem kilometreMetre_spells : Spells "km*m" (kilometreMetre 1) (squareMetres (1000 * 1)) where
  units := by decide +kernel
  parsed := parse_kilometreMetre
  tidied := tidy_kilometreMetre 1

theorem reduce_kilometreMetre (x : Rat) : exact.reduce (kilometreMetre x) = .ok (squareMetres (1000 * x)) := by
  have canonical : ∀ u ∈ (squareMetres (1000 * x)).units, u.isCanonical = true := by
    rw [squareMetres, List.forall_mem_singleton]
    rfl
  exact reduce_of_no_pass (tidy_kilometreMetre x) canonical

theorem convert_kilometreMetre (x : Rat) : ∃ r, exact.convert (kilometreMetre x) "km*m" = .ok r :=
  (convert_iff (a := kilometreMetre x) builtin_indexed exact_acyclic
    kilometreMetre_spells.sound.covers (reduce_kilometreMetre x) parse_kilometreMetre kilometreMetre_spells.near
    (reduce_kilometreMetre 1)).mpr rfl

/-- The number of `km*m` in `x` of them is not `x`. -/
theorem convertAmount_kilometreMetre (x : Rat) : exact.convertAmount x "km*m" "km*m" = .ok (1000 * x) := by
  obtain ⟨r, converted⟩ := convert_kilometreMetre x
  have written : exact.parseWithAmount x "km*m" = .ok (kilometreMetre x) := by
    refine bind_ok_iff.mpr ⟨_, parse_kilometreMetre, ?_⟩
    show Except.ok (kilometreMetre (1 * x)) = _
    rw [one_mul]
  have given : exact.convertAmount x "km*m" "km*m" = .ok r.amount :=
    bind_ok_iff.mpr ⟨_, written, bind_ok_iff.mpr ⟨r, converted, rfl⟩⟩
  have read := readValue_convertAmount kilometreMetre_spells kilometreMetre_spells given
  have amount : r.amount = x * (1000 * 1) := readValue_injective kilometreMetre_spells.soundTidy read
  rw [given, amount, mul_one, mul_comm]

/-! ### Degrees Celsius as a target -/

theorem parse_celsius : exact.parse "°C" = .ok (celsius 1 1) := by
  have legible : Expression.IsSpelling "°C".toList := ⟨by simp, by simp [isSymbolChar], by simp⟩
  have parsed : exact.parse "°C" = .ok (celsius Scalar.one 1) :=
    parse_symbol (u := Builtin.celsius) builtin_indexed Builtin.celsius_mem legible
  rwa [Scalar.one_eq] at parsed

theorem convert_celsius (x : Rat) : ∃ r, exact.convert (celsius x 1) "°C" = .ok r := by
  have near : Scalar.isNear Scalar.defaultTolerance (celsius 1 1).amount Scalar.one = true := by
    rw [Scalar.one_eq]
    exact Scalar.isNear_refl _ _
  exact (convert_iff (a := celsius x 1) builtin_indexed exact_acyclic (celsius_sound x 1).covers
    (reduce_celsius x) parse_celsius near (reduce_celsius 1)).mpr rfl

/-! ### The laws -/

/-- A conversion gives the tidy units of its target and keeps the reduction of its source, so a second
conversion to that target changes nothing. -/
theorem exact_convert (covers : exact.Covers q.units) (h : exact.convert q text = .ok r) :
    ∃ p t s, exact.parse text = .ok p ∧ p.tidy = .ok t ∧ r.units = t.units ∧
      exact.reduce q = .ok s ∧ exact.reduce r = .ok s ∧ exact.convert r text = .ok r := by
  obtain ⟨p, t, s, parsed, tidied, units, first, again⟩ := convert_reduces covers h
  exact ⟨p, t, s, parsed, tidied, units, first, again, convert_again h first again⟩

theorem exact_convert_samples :
    (∃ r, exact.convert (celsius 20 1) "°C" = .ok r ∧ exact.reduce r = exact.reduce (celsius 20 1) ∧
        exact.convert r "°C" = .ok r) ∧
      ∃ r, exact.convert (kilometreMetre 3) "km*m" = .ok r ∧ r.units = (squareMetres 1).units ∧
        exact.reduce r = exact.reduce (kilometreMetre 3) ∧ exact.convert r "km*m" = .ok r := by
  constructor
  · obtain ⟨r, converted⟩ := convert_celsius 20
    obtain ⟨p, t, s, -, -, -, first, reduced, again⟩ := exact_convert (celsius_sound 20 1).covers converted
    exact ⟨r, converted, reduced.trans first.symm, again⟩
  · obtain ⟨r, converted⟩ := convert_kilometreMetre 3
    obtain ⟨p, t, s, parsed, tidied, units, first, reduced, again⟩ :=
      exact_convert (q := kilometreMetre 3) kilometreMetre_spells.sound.covers converted
    obtain rfl : kilometreMetre 1 = p := Except.ok.inj (parse_kilometreMetre.symm.trans parsed)
    obtain rfl : squareMetres (1000 * 1) = t := Except.ok.inj ((tidy_kilometreMetre 1).symm.trans tidied)
    exact ⟨r, converted, units, reduced.trans first.symm, again⟩

/-- Converting a number and back multiplies it by the amounts that tidying the two expressions left,
and so gives it back when there are none. -/
theorem exact_convertAmount (written : Spells source p t) (aimed : Spells target p' t')
    (h : exact.convertAmount x source target = .ok y) :
    ∃ z, exact.convertAmount y target source = .ok z ∧
      (t.offsetScale? = none → t'.offsetScale? = none →
        y * exact.value p' = t'.amount * (x * exact.value p) ∧ z = t.amount * t'.amount * x) ∧
      (t.amount = 1 → t'.amount = 1 → z = x) := by
  obtain ⟨z, back⟩ := convertAmount_back written aimed h y
  have forward := readValue_convertAmount written aimed h
  have backward := readValue_convertAmount aimed written back
  refine ⟨z, back, ?_, ?_⟩
  · intro several several'
    have worth_ne : worth exact.scale t.units ≠ 0 := worth_ne_zero exact_valued.nonzero written.soundTidy
    have value : exact.value t = exact.value p :=
      value_tidy builtin_indexed.toNumbered exact_valued.nonzero written.sound written.tidied
    have value' : exact.value t' = exact.value p' :=
      value_tidy builtin_indexed.toNumbered exact_valued.nonzero aimed.sound aimed.tidied
    rw [readValue_several (t := ⟨y, t'.units⟩) several',
      readValue_several (t := ⟨x * t.amount, t.units⟩) several] at forward
    rw [readValue_several (t := ⟨z, t.units⟩) several,
      readValue_several (t := ⟨y * t'.amount, t'.units⟩) several'] at backward
    change y * worth exact.scale t'.units = x * t.amount * worth exact.scale t.units at forward
    change z * worth exact.scale t.units = y * t'.amount * worth exact.scale t'.units at backward
    change t.amount * worth exact.scale t.units = exact.value p at value
    change t'.amount * worth exact.scale t'.units = exact.value p' at value'
    constructor
    · rw [← value, ← value']
      linear_combination t'.amount * forward
    · refine mul_right_cancel₀ worth_ne ?_
      linear_combination backward + t'.amount * forward
  · intro one one'
    rw [one, mul_one] at forward
    rw [one', mul_one, forward] at backward
    exact readValue_injective written.soundTidy backward

theorem exact_convertAmount_samples :
    exact.convertAmount 3 "km*m" "km*m" = .ok 3000 ∧ exact.convertAmount 3000 "km*m" "km*m" = .ok 3000000 := by
  have forward : exact.convertAmount 3 "km*m" "km*m" = .ok 3000 := by
    rw [convertAmount_kilometreMetre]
    norm_num
  obtain ⟨z, back, several, -⟩ := exact_convertAmount kilometreMetre_spells kilometreMetre_spells forward
  have amount := (several rfl rfl).2
  refine ⟨forward, ?_⟩
  rw [back, amount]
  norm_num [squareMetres]

/-- One `km*m` is said to be a thousand `km*m`, and these a million. -/
theorem convertAmount_twice :
    exact.convertAmount 1 "km*m" "km*m" = .ok 1000 ∧ exact.convertAmount 1000 "km*m" "km*m" = .ok 1000000 ∧
      isUnitList "km*m" = true ∧ (squareMetres 1000).offsetScale? = none := by
  refine ⟨?_, ?_, kilometreMetre_spells.units, rfl⟩
  · rw [convertAmount_kilometreMetre, mul_one]
  · rw [convertAmount_kilometreMetre]
    norm_num

end Metrology.Registry
