import Metrology.Proofs.Quantity.Totals
import Metrology.Proofs.Reduction.Passes
import Metrology.Proofs.Registry.Builtin

/-!
Reduction computes the dimension of a quantity. Passes keep the dimension, the canonical shape and
the registry of the units (`Progress`), and over irreducible units without prefixes the dimension
leaves only one such list, `canonicalUnits`. Main statement: `reduce_units_eq_canonicalUnits`.
-/

namespace Metrology.Registry
open Outcome Quantity

variable {α : Type} [Scalar α] {r : Registry α} {q t start : Quantity α} {u : Factor α}
  {us vs : List (Factor α)} {x y : α} {d : Dimension}

/-! ### Passes keep the dimension -/

theorem dimension_expand (indexed : r.Indexed) (acyclic : r.Acyclic) (member : u.base ∈ r.units)
    (h : r.expand x u = .ok (y, vs)) : weigh r.dimension vs = u.exponent.val • r.dimension u.base := by
  rcases expand_ok h with ⟨-, -, rfl⟩ | ⟨metric, q, power, defined, parsed, raised, -, rfl⟩
  · exact weigh_singleton (f := r.dimension)
  · have inside : r.Covers q.units := covers_parse indexed parsed
    rw [weigh_pow (q := scaledDefinition u q) indexed.toNumbered inside raised,
      dimension_reducible indexed acyclic member defined parsed]
    rfl

theorem dimension_expandAll (indexed : r.Indexed) (acyclic : r.Acyclic) (covers : r.Covers us)
    (h : r.expandAll x us = .ok (y, vs)) : weigh r.dimension vs = weigh r.dimension us := by
  induction us generalizing x vs with
  | nil =>
    cases h
    rfl
  | cons u us ih =>
    rw [covers_cons] at covers
    obtain ⟨z, front, back, first, rest, rfl⟩ := expandAll_cons_ok h
    rw [weigh_append, weigh_cons, dimension_expand indexed acyclic covers.1 first, ih covers.2 rest]

/-- What every pass keeps: units of the registry in canonical shape, of the dimension `d`. -/
structure Progress (r : Registry α) (d : Dimension) (q : Quantity α) : Prop where
  covers : r.Covers q.units
  shape : Tidy q.units
  dimension : r.dimensionOf q = d

theorem progress_tidy (indexed : r.Indexed) (covers : r.Covers q.units) (h : q.tidy = .ok t) :
    Progress r (r.dimensionOf q) t :=
  ⟨tidy_covers covers h, tidy_shape indexed.toNumbered covers h, weigh_tidy indexed.toNumbered covers h⟩

theorem progress_pass (indexed : r.Indexed) (acyclic : r.Acyclic) (before : Progress r d q)
    (h : r.pass q = .ok t) : Progress r d t := by
  obtain ⟨x, y, us, expanded, tidied⟩ := expandAll_of_pass h
  have same : r.dimensionOf ⟨x, us⟩ = d := by
    rw [← before.dimension, dimensionOf, dimension_expandAll indexed acyclic before.covers expanded]
    rfl
  rw [← same]
  exact progress_tidy indexed (covers_expandAll indexed before.covers expanded) tidied

/-- Reduction is a run of passes to canonical factors, and the prefix of the kilogram. -/
theorem progress_reduce (indexed : r.Indexed) (acyclic : r.Acyclic) (covers : r.Covers q.units)
    (h : r.reduce q = .ok t) :
    ∃ reduced, Progress r (r.dimensionOf q) reduced ∧
      (∀ u ∈ reduced.units, u.base.definition.metric? = none ∧ u.pre = none) ∧
      t.units = reduced.units.map withKilogram := by
  obtain ⟨tidied, reduced, first, passed, rfl⟩ := reduce_ok h
  obtain ⟨progress, canonical⟩ := passes_induction
    (fun _ _ before step => progress_pass indexed acyclic before step)
    (progress_tidy indexed covers first) passed
  exact ⟨reduced, progress, fun u member => Factor.isCanonical_iff.mp (canonical u member),
    restoreKilogram_units progress.shape.distinct⟩

/-! ### The canonical list -/

/-- The irreducible units in which `d` is not zero: first where it is positive, then where it is
negative, both in the order of registration. -/
def support (r : Registry α) (d : Dimension) : List (BaseUnit α) :=
  r.units.filter (fun b => !b.isReducible && decide (0 < d b.symbol)) ++
    r.units.filter (fun b => !b.isReducible && decide (d b.symbol < 0))

/-- The prefix of an irreducible unit in a reduced quantity. -/
def canonicalPrefix? (b : BaseUnit α) : Option (Prefix α) :=
  if b.symbol = "g" then some ⟨"k", Scalar.ofFloat 1e3⟩ else none

/-- Base, prefix and exponent of each factor of the dimension `d`. -/
def canonicalUnits (r : Registry α) (d : Dimension) : List (BaseUnit α × Option (Prefix α) × Int) :=
  (r.support d).map fun b => (b, canonicalPrefix? b, d b.symbol)

omit [Scalar α] in
theorem support_eq : r.support d = (r.ranked d).filter fun b => !b.isReducible := by
  rw [ranked, List.filter_append, List.filter_filter, List.filter_filter]
  rfl

/-- Over irreducible units the canonical shape is determined by the dimension. -/
theorem bases_eq_support (numbered : r.Numbered) (covers : r.Covers us) (shape : Tidy us)
    (irreducible : ∀ u ∈ us, u.base.definition.metric? = none) :
    us.map (·.base) = r.support (weigh r.dimension us) := by
  rw [← totals_eq_dimension covers irreducible, support_eq, ← bases_eq_ranked numbered covers shape]
  refine (List.filter_eq_self.mpr fun b member => ?_).symm
  obtain ⟨u, present, rfl⟩ := List.mem_map.mp member
  rw [Bool.not_eq_true', BaseUnit.isReducible_eq_false]
  exact irreducible u present

theorem withKilogram_pre (irreducible : u.base.definition.metric? = none) (bare : u.pre = none) :
    (withKilogram u).pre = canonicalPrefix? u.base := by
  unfold withKilogram canonicalPrefix?
  by_cases gram : u.base.symbol = "g"
  · rw [if_pos (isGram_iff.mpr ⟨gram, irreducible⟩), if_pos gram]
    rfl
  · rw [if_neg fun found => gram (isGram_iff.mp found).1, if_neg gram, bare]

/-- Irreducible units in tidy order, without prefixes save that of the kilogram. -/
structure Reduced {α : Type} [Scalar α] (us : List (Factor α)) : Prop where
  shape : Tidy us
  irreducible : ∀ u ∈ us, u.base.definition.metric? = none
  prefixes : ∀ u ∈ us, u.pre = canonicalPrefix? u.base

theorem reduced_reduce (indexed : r.Indexed) (covers : r.Covers q.units) (h : r.reduce q = .ok t) :
    Reduced t.units := by
  refine ⟨tidy_reduce indexed covers h, irreducible_reduce indexed covers h, ?_⟩
  obtain ⟨reduced, -, -, canonical, units⟩ := shape_reduce indexed covers h
  intro w member
  rw [units] at member
  obtain ⟨u, present, rfl⟩ := List.mem_map.mp member
  rw [withKilogram_base]
  exact withKilogram_pre (canonical u present).1 (canonical u present).2

/-- The entries of a canonical list are those of its dimension. -/
theorem entries_of_reduced (numbered : r.Numbered) (covers : r.Covers us) (reduced : Reduced us) :
    us.map Factor.parts = r.canonicalUnits (weigh r.dimension us) := by
  rw [parts_of_tidy numbered covers reduced.shape reduced.prefixes, canonicalUnits,
    ← bases_eq_support numbered covers reduced.shape reduced.irreducible,
    ← bases_eq_ranked numbered covers reduced.shape, totals_eq_dimension covers reduced.irreducible]

/-- A canonical list is determined by its dimension. -/
theorem eq_of_reduced (numbered : r.Numbered) (hus : r.Covers us) (hvs : r.Covers vs) (left : Reduced us)
    (right : Reduced vs) (same : weigh r.dimension us = weigh r.dimension vs) : us = vs := by
  refine eq_of_tidy numbered hus hvs left.shape right.shape left.prefixes right.prefixes ?_
  rw [totals_eq_dimension hus left.irreducible, totals_eq_dimension hvs right.irreducible, same]

theorem dimension_reduce (indexed : r.Indexed) (acyclic : r.Acyclic) (covers : r.Covers q.units)
    (h : r.reduce q = .ok t) : r.dimensionOf t = r.dimensionOf q := by
  obtain ⟨reduced, progress, -, units⟩ := progress_reduce indexed acyclic covers h
  rw [← progress.dimension, dimensionOf, dimensionOf, units, weigh_withKilogram]

theorem entries_reduce (indexed : r.Indexed) (acyclic : r.Acyclic) (covers : r.Covers q.units)
    (h : r.reduce q = .ok t) : t.units.map Factor.parts = r.canonicalUnits (r.dimensionOf q) := by
  rw [← dimension_reduce indexed acyclic covers h]
  exact entries_of_reduced indexed.toNumbered (covers_reduce indexed covers h) (reduced_reduce indexed covers h)

/-- Quantities of one dimension reduce to the same units. -/
theorem units_eq_of_dimension (indexed : r.Indexed) (acyclic : r.Acyclic) {q' t' : Quantity α}
    (covers : r.Covers q.units) (covers' : r.Covers q'.units) (h : r.reduce q = .ok t)
    (h' : r.reduce q' = .ok t') (same : r.dimensionOf q = r.dimensionOf q') : t.units = t'.units := by
  refine eq_of_reduced indexed.toNumbered (covers_reduce indexed covers h) (covers_reduce indexed covers' h')
    (reduced_reduce indexed covers h) (reduced_reduce indexed covers' h') ?_
  exact (dimension_reduce indexed acyclic covers h).trans
    (same.trans (dimension_reduce indexed acyclic covers' h').symm)

/-- Reduction computes the dimension of a quantity: one factor for each irreducible unit in which it
is not zero, without prefixes save that of the kilogram, in strict canonical order. -/
theorem reduce_units_eq_canonicalUnits (reachable : r.Reachable) (acyclic : r.Acyclic)
    (covers : r.Covers q.units) (h : r.reduce q = .ok t) :
    t.units.map (fun u => (u.base, u.pre, u.exponent.val)) = r.canonicalUnits (r.dimensionOf q) ∧
      t.units.Pairwise Factor.Before :=
  ⟨entries_reduce reachable.indexed acyclic covers h,
    (tidy_reduce reachable.indexed covers h).ordered⟩

/-- `3 km²·cm/mg` -/
def volumePerMass : Quantity Float :=
  ⟨3, [⟨Builtin.metre, Prefix.named? "k", .squared⟩,
    ⟨Builtin.metre, Prefix.named? "c", 1⟩, ⟨Builtin.gram, Prefix.named? "m", .reciprocal⟩]⟩

theorem volumePerMass_covers : standard.Covers volumePerMass.units := by
  have metre : Builtin.metre ∈ standard.units := Builtin.metre_mem
  have gram : Builtin.gram ∈ standard.units := Builtin.gram_mem
  rw [volumePerMass, covers_cons, covers_cons, covers_cons]
  exact ⟨metre, metre, gram, covers_nil⟩

theorem reduce_units_eq_canonicalUnits_standard :
    standard.Reachable ∧ standard.Acyclic ∧ ∃ t, standard.reduce volumePerMass = .ok t ∧
      t.units.map (fun u => (u.base, u.pre, u.exponent.val)) =
        standard.canonicalUnits (standard.dimensionOf volumePerMass) ∧
      t.units.Pairwise Factor.Before := by
  obtain ⟨t, reduced⟩ := isOk_iff.mp (show (standard.reduce volumePerMass).isOk = true by decide +kernel)
  exact ⟨builtin_reachable, standard_acyclic, t, reduced,
    reduce_units_eq_canonicalUnits builtin_reachable standard_acyclic volumePerMass_covers reduced⟩

end Metrology.Registry
