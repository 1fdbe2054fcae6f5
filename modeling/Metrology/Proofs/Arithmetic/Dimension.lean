import Metrology.Registry.Conversion
import Metrology.Proofs.Reduction.Amount
import Metrology.Proofs.Reduction.Canonical

/-!
Dimensional checking. Two quantities that reduce may be added or converted into each other exactly
when their dimensions agree, since reduced quantities of one dimension have the same units. The
`..._ok` lemmas list what a successful operation did, and `dimension_...` gives the dimension of its
result.
-/

namespace Metrology.Registry
open Outcome Quantity

variable {α : Type} [Scalar α] {r : Registry α} {a b s t p q : Quantity α} {text : String}

/-! ### What a successful operation did -/

theorem requireSameUnits_ok : requireSameUnits s t = .ok ⟨⟩ ↔ s.sameUnits t = true := by
  unfold requireSameUnits
  split
  · rename_i same
    exact ⟨fun _ => same, fun _ => rfl⟩
  · rename_i different
    exact ⟨nofun, fun same => absurd same different⟩

theorem requireSameUnits_error (different : ¬s.sameUnits t = true) :
    requireSameUnits s t = .error (.incompatibleUnits s.unitLabel t.unitLabel) := by
  rw [requireSameUnits, if_neg different]

theorem multiply_ok (h : r.multiply a b = .ok q) :
    ∃ s t, r.reduce a = .ok s ∧ r.reduce b = .ok t ∧
      Quantity.tidy ⟨s.amount * t.amount, s.units ++ t.units⟩ = .ok q := by
  obtain ⟨s, first, h⟩ := bind_ok h
  obtain ⟨t, second, h⟩ := bind_ok h
  exact ⟨s, t, first, second, h⟩

theorem divide_ok (h : r.divide a b = .ok q) : ∃ c, b.inverse = .ok c ∧ r.multiply a c = .ok q :=
  bind_ok h

theorem add_ok (h : r.add a b = .ok q) :
    ∃ s t, r.reduce a = .ok s ∧ r.reduce b = .ok t ∧ s.sameUnits t = true ∧
      q = { s with amount := s.amount + t.amount } := by
  obtain ⟨s, first, h⟩ := bind_ok h
  obtain ⟨t, second, h⟩ := bind_ok h
  obtain ⟨_, checked, h⟩ := bind_ok h
  exact ⟨s, t, first, second, requireSameUnits_ok.mp checked, pure_ok h⟩

theorem add_of_sameUnits (first : r.reduce a = .ok s) (second : r.reduce b = .ok t)
    (same : s.sameUnits t = true) : r.add a b = .ok { s with amount := s.amount + t.amount } := by
  refine bind_ok_iff.mpr ⟨s, first, bind_ok_iff.mpr ⟨t, second, ?_⟩⟩
  exact bind_ok_iff.mpr ⟨_, requireSameUnits_ok.mpr same, rfl⟩

theorem add_error (first : r.reduce a = .ok s) (second : r.reduce b = .ok t)
    (different : ¬s.sameUnits t = true) :
    r.add a b = .error (.incompatibleUnits s.unitLabel t.unitLabel) := by
  simp only [add, first, second]
  show (requireSameUnits s t >>= _) = _
  rw [requireSameUnits_error different]
  rfl

theorem compatible_eq (first : r.reduce a = .ok s) (second : r.reduce b = .ok t) :
    r.compatible a b = .ok (s.sameUnits t) := by
  simp only [compatible, first, second]
  rfl

theorem parseTarget_ok (h : r.parseTarget text = .ok t) :
    ∃ p tidied, r.parse text = .ok p ∧ p.tidy = .ok tidied ∧ t = { tidied with amount := Scalar.one } := by
  obtain ⟨p, parsed, h⟩ := bind_ok h
  split at h
  · obtain ⟨tidied, first, h⟩ := bind_ok h
    exact ⟨p, tidied, parsed, first, pure_ok h⟩
  · cases h

/-- The amount in the units of the target `t` for the reduced source `s` and the reduced target `c`. -/
def convertedAmount (t s c : Quantity α) : α :=
  match t.offsetScale? with
  | some scale => scale.fromMetric s.amount
  | none => s.amount / c.amount

theorem convert_ok (h : r.convert a text = .ok q) :
    ∃ t s c, r.parseTarget text = .ok t ∧ r.reduce a = .ok s ∧ r.reduce t = .ok c ∧
      s.sameUnits c = true ∧ q = { t with amount := convertedAmount t s c } := by
  obtain ⟨t, aimed, h⟩ := bind_ok h
  obtain ⟨s, first, h⟩ := bind_ok h
  obtain ⟨c, second, h⟩ := bind_ok h
  obtain ⟨_, checked, h⟩ := bind_ok h
  exact ⟨t, s, c, aimed, first, second, requireSameUnits_ok.mp checked, pure_ok h⟩

theorem convert_of_sameUnits {c : Quantity α} (aimed : r.parseTarget text = .ok t) (first : r.reduce a = .ok s)
    (second : r.reduce t = .ok c) (same : s.sameUnits c = true) :
    r.convert a text = .ok { t with amount := convertedAmount t s c } := by
  refine bind_ok_iff.mpr ⟨t, aimed, bind_ok_iff.mpr ⟨s, first, bind_ok_iff.mpr ⟨c, second, ?_⟩⟩⟩
  exact bind_ok_iff.mpr ⟨_, requireSameUnits_ok.mpr same, rfl⟩

/-! ### The check compares dimensions -/

omit [Scalar α] in
theorem sameUnits_of_units (units : s.units = t.units) : s.sameUnits t = true := by
  rw [sameUnits, units]
  exact BEq.rfl

theorem sameUnits_iff (indexed : r.Indexed) (acyclic : r.Acyclic) (ha : r.Covers a.units)
    (hb : r.Covers b.units) (first : r.reduce a = .ok s) (second : r.reduce b = .ok t) :
    s.sameUnits t = true ↔ r.dimensionOf a = r.dimensionOf b := by
  constructor
  · intro same
    rw [← dimension_reduce indexed acyclic ha first, ← dimension_reduce indexed acyclic hb second]
    exact weigh_of_beq indexed.toNumbered (covers_reduce indexed ha first)
      (covers_reduce indexed hb second) same
  · intro same
    exact sameUnits_of_units (units_eq_of_dimension indexed acyclic ha hb first second same)

theorem compatible_iff (indexed : r.Indexed) (acyclic : r.Acyclic) (ha : r.Covers a.units)
    (hb : r.Covers b.units) (first : r.reduce a = .ok s) (second : r.reduce b = .ok t) :
    r.compatible a b = .ok true ↔ r.dimensionOf a = r.dimensionOf b := by
  rw [compatible_eq first second, Except.ok.injEq]
  exact sameUnits_iff indexed acyclic ha hb first second

theorem add_iff (indexed : r.Indexed) (acyclic : r.Acyclic) (ha : r.Covers a.units)
    (hb : r.Covers b.units) (first : r.reduce a = .ok s) (second : r.reduce b = .ok t) :
    (∃ q, r.add a b = .ok q) ↔ r.dimensionOf a = r.dimensionOf b := by
  rw [← sameUnits_iff indexed acyclic ha hb first second]
  constructor
  · rintro ⟨q, added⟩
    obtain ⟨s', t', first', second', same, -⟩ := add_ok added
    rw [first] at first'
    rw [second] at second'
    cases first'
    cases second'
    exact same
  · exact fun same => ⟨_, add_of_sameUnits first second same⟩

theorem add_incompatible (indexed : r.Indexed) (acyclic : r.Acyclic) (ha : r.Covers a.units)
    (hb : r.Covers b.units) (first : r.reduce a = .ok s) (second : r.reduce b = .ok t)
    (different : r.dimensionOf a ≠ r.dimensionOf b) :
    ∃ left right, r.add a b = .error (.incompatibleUnits left right) :=
  ⟨_, _, add_error first second fun same =>
    different ((sameUnits_iff indexed acyclic ha hb first second).mp same)⟩

theorem subtract_iff (indexed : r.Indexed) (acyclic : r.Acyclic) (ha : r.Covers a.units)
    (hb : r.Covers b.units) (first : r.reduce a = .ok s) (second : r.reduce b = .ok t) :
    (∃ q, r.subtract a b = .ok q) ↔ r.dimensionOf a = r.dimensionOf b := by
  obtain ⟨x, negated⟩ := reduce_amount (-b.amount) second
  exact add_iff (b := b.negate) indexed acyclic ha hb first negated

theorem subtract_incompatible (indexed : r.Indexed) (acyclic : r.Acyclic) (ha : r.Covers a.units)
    (hb : r.Covers b.units) (first : r.reduce a = .ok s) (second : r.reduce b = .ok t)
    (different : r.dimensionOf a ≠ r.dimensionOf b) :
    ∃ left right, r.subtract a b = .error (.incompatibleUnits left right) := by
  obtain ⟨x, negated⟩ := reduce_amount (-b.amount) second
  exact add_incompatible (b := b.negate) indexed acyclic ha hb first negated different

/-- A target that parses with an amount near one and reduces is met by the sources of its dimension. -/
theorem convert_iff (indexed : r.Indexed) (acyclic : r.Acyclic) (ha : r.Covers a.units)
    (first : r.reduce a = .ok s) (parsed : r.parse text = .ok p)
    (near : Scalar.isNear Scalar.defaultTolerance p.amount Scalar.one = true) (reduces : r.reduce p = .ok t) :
    (∃ q, r.convert a text = .ok q) ↔ r.dimensionOf a = r.dimensionOf p := by
  have hp : r.Covers p.units := covers_parse indexed parsed
  obtain ⟨tidied, -, tidies, -, -⟩ := reduce_ok reduces
  have aimed : r.parseTarget text = .ok { tidied with amount := Scalar.one } := by
    refine bind_ok_iff.mpr ⟨p, parsed, ?_⟩
    rw [if_pos near]
    exact bind_ok_iff.mpr ⟨tidied, tidies, rfl⟩
  obtain ⟨x, second⟩ := reduce_of_tidy indexed.toNumbered hp tidies Scalar.one reduces
  have covers : r.Covers tidied.units := tidy_covers hp tidies
  have dimension : r.dimensionOf p = r.dimensionOf ⟨Scalar.one, tidied.units⟩ :=
    (weigh_tidy indexed.toNumbered hp tidies).symm
  rw [dimension, ← sameUnits_iff (b := ⟨Scalar.one, tidied.units⟩) indexed acyclic ha covers first second]
  constructor
  · rintro ⟨q, converted⟩
    obtain ⟨t', s', c', aimed', first', second', same, -⟩ := convert_ok converted
    rw [aimed] at aimed'
    cases aimed'
    rw [first] at first'
    rw [second] at second'
    cases first'
    cases second'
    exact same
  · exact fun same => ⟨_, convert_of_sameUnits aimed first second same⟩

/-! ### The dimension of a result -/

theorem dimension_add (indexed : r.Indexed) (acyclic : r.Acyclic) (ha : r.Covers a.units)
    (h : r.add a b = .ok q) : r.dimensionOf q = r.dimensionOf a := by
  obtain ⟨s, t, first, -, -, rfl⟩ := add_ok h
  rw [← dimension_reduce indexed acyclic ha first]
  rfl

theorem dimension_multiply (indexed : r.Indexed) (acyclic : r.Acyclic) (ha : r.Covers a.units)
    (hb : r.Covers b.units) (h : r.multiply a b = .ok q) :
    r.dimensionOf q = r.dimensionOf a + r.dimensionOf b := by
  obtain ⟨s, t, first, second, tidied⟩ := multiply_ok h
  have covers : r.Covers (s.units ++ t.units) := covers_append.mpr
    ⟨covers_reduce indexed ha first, covers_reduce indexed hb second⟩
  rw [← dimension_reduce indexed acyclic ha first, ← dimension_reduce indexed acyclic hb second,
    dimensionOf, weigh_tidy (q := ⟨_, s.units ++ t.units⟩) indexed.toNumbered covers tidied, weigh_append]
  rfl

theorem dimension_inverse (indexed : r.Indexed) (ha : r.Covers a.units) (h : a.inverse = .ok q) :
    r.dimensionOf q = -r.dimensionOf a :=
  weigh_inverse indexed.toNumbered ha h

theorem dimension_pow (indexed : r.Indexed) {n : Exponent} (ha : r.Covers a.units) (h : a.pow n = .ok q) :
    r.dimensionOf q = n.val • r.dimensionOf a :=
  weigh_pow indexed.toNumbered ha h

theorem dimension_divide (indexed : r.Indexed) (acyclic : r.Acyclic) (ha : r.Covers a.units)
    (hb : r.Covers b.units) (h : r.divide a b = .ok q) :
    r.dimensionOf q = r.dimensionOf a - r.dimensionOf b := by
  obtain ⟨c, inverted, multiplied⟩ := divide_ok h
  rw [dimension_multiply indexed acyclic ha (covers_inverse hb inverted) multiplied,
    dimension_inverse indexed hb inverted, sub_eq_add_neg]

theorem dimension_convert (indexed : r.Indexed) (acyclic : r.Acyclic) (ha : r.Covers a.units)
    (h : r.convert a text = .ok q) : r.dimensionOf q = r.dimensionOf a := by
  obtain ⟨t, s, c, aimed, first, second, same, rfl⟩ := convert_ok h
  obtain ⟨p, tidied, parsed, tidies, rfl⟩ := parseTarget_ok aimed
  have hp : r.Covers p.units := covers_parse indexed parsed
  have covers : r.Covers tidied.units := tidy_covers hp tidies
  have agree := sameUnits_iff (b := { tidied with amount := Scalar.one }) indexed acyclic ha covers first second
  exact (agree.mp same).symm

/-! ### The built-in units -/

/-- Over the built-in units the dimensional check is sound and complete, and the operations act on
dimensions as on exact integers. -/
theorem standard_dimensional_check {a b : Quantity Float} (ha : standard.Covers a.units)
    (hb : standard.Covers b.units) (n : Exponent) (text : String) :
    (∀ s t, standard.reduce a = .ok s → standard.reduce b = .ok t →
      (standard.compatible a b = .ok true ↔ standard.dimensionOf a = standard.dimensionOf b) ∧
      ((∃ q, standard.add a b = .ok q) ↔ standard.dimensionOf a = standard.dimensionOf b) ∧
      ((∃ q, standard.subtract a b = .ok q) ↔ standard.dimensionOf a = standard.dimensionOf b) ∧
      (standard.dimensionOf a ≠ standard.dimensionOf b →
        (∃ left right, standard.add a b = .error (.incompatibleUnits left right)) ∧
        ∃ left right, standard.subtract a b = .error (.incompatibleUnits left right))) ∧
    (∀ s p t, standard.reduce a = .ok s → standard.parse text = .ok p →
      Scalar.isNear Scalar.defaultTolerance p.amount Scalar.one = true → standard.reduce p = .ok t →
      ((∃ q, standard.convert a text = .ok q) ↔ standard.dimensionOf a = standard.dimensionOf p)) ∧
    (∀ q, standard.add a b = .ok q → standard.dimensionOf q = standard.dimensionOf a) ∧
    (∀ q, standard.multiply a b = .ok q →
      standard.dimensionOf q = standard.dimensionOf a + standard.dimensionOf b) ∧
    (∀ q, standard.divide a b = .ok q →
      standard.dimensionOf q = standard.dimensionOf a - standard.dimensionOf b) ∧
    (∀ q, a.inverse = .ok q → standard.dimensionOf q = -standard.dimensionOf a) ∧
    (∀ q, a.pow n = .ok q → standard.dimensionOf q = n.val • standard.dimensionOf a) ∧
    (∀ q, standard.convert a text = .ok q → standard.dimensionOf q = standard.dimensionOf a) := by
  have indexed := standard_indexed
  have acyclic := standard_acyclic
  refine ⟨?_, ?_, ?_, ?_, ?_, ?_, ?_, ?_⟩
  · intro s t first second
    refine ⟨compatible_iff indexed acyclic ha hb first second, add_iff indexed acyclic ha hb first second,
      subtract_iff indexed acyclic ha hb first second, ?_⟩
    intro different
    exact ⟨add_incompatible indexed acyclic ha hb first second different,
      subtract_incompatible indexed acyclic ha hb first second different⟩
  · intro s p t first parsed near reduces
    exact convert_iff indexed acyclic ha first parsed near reduces
  · exact fun q added => dimension_add indexed acyclic ha added
  · exact fun q multiplied => dimension_multiply indexed acyclic ha hb multiplied
  · exact fun q divided => dimension_divide indexed acyclic ha hb divided
  · exact fun q inverted => dimension_inverse indexed ha inverted
  · exact fun q raised => dimension_pow indexed ha raised
  · exact fun q converted => dimension_convert indexed acyclic ha converted

/-- `x` kelvins, with or without a prefix. -/
def kelvins (x : Float) (pre : Option (Prefix Float)) : Quantity Float :=
  ⟨x, [⟨Builtin.kelvin, pre, 1⟩]⟩

theorem kelvins_covers (x : Float) (pre : Option (Prefix Float)) : standard.Covers (kelvins x pre).units :=
  covers_singleton.mpr Builtin.kelvin_mem

theorem dimensionOf_kelvins (x : Float) (pre : Option (Prefix Float)) :
    standard.dimensionOf (kelvins x pre) = standard.dimension Builtin.kelvin := by
  rw [dimensionOf, kelvins, weigh_singleton]
  exact one_smul Int _

theorem standard_dimensional_check_kelvins :
    standard.compatible (kelvins 3 (Prefix.named? "k")) (kelvins 5 none) = .ok true ∧
      (∃ q, standard.add (kelvins 3 (Prefix.named? "k")) (kelvins 5 none) = .ok q) ∧
      ∃ q, standard.convert (kelvins 3 (Prefix.named? "k")) "K" = .ok q ∧
        standard.dimensionOf q = standard.dimensionOf (kelvins 5 none) := by
  obtain ⟨s, first⟩ := isOk_iff.mp
    (show (standard.reduce (kelvins 3 (Prefix.named? "k"))).isOk = true by decide +kernel)
  obtain ⟨t, second⟩ := isOk_iff.mp (show (standard.reduce (kelvins 5 none)).isOk = true by decide +kernel)
  obtain ⟨c, third⟩ := isOk_iff.mp (show (standard.reduce (kelvins 1 none)).isOk = true by decide +kernel)
  obtain ⟨check, conversion, -, -, -, -, -, converted⟩ := standard_dimensional_check
    (kelvins_covers 3 (Prefix.named? "k")) (kelvins_covers 5 none) 1 "K"
  obtain ⟨compatible, addition, -, -⟩ := check s t first second
  have same : ∀ x y pre pre', standard.dimensionOf (kelvins x pre) = standard.dimensionOf (kelvins y pre') := by
    intro x y pre pre'
    rw [dimensionOf_kelvins, dimensionOf_kelvins]
  have near : Scalar.isNear Scalar.defaultTolerance (kelvins 1 none).amount Scalar.one = true := by
    decide +kernel
  obtain ⟨q, met⟩ :=
    (conversion s (kelvins 1 none) c first builtin_parse_kelvin near third).mpr (same _ _ _ _)
  exact ⟨compatible.mpr (same _ _ _ _), addition.mpr (same _ _ _ _), q, met,
    (converted q met).trans (same _ _ _ _)⟩

end Metrology.Registry
