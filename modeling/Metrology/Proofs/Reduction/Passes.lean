import Metrology.Registry.Reduction
import Metrology.Proofs.Quantity.Weight
import Metrology.Proofs.Registry.Definition

/-!
What reduction can do, step by step. `expand_ok`, `pass_ok` and `reduce_ok` list the cases of a
successful step, and by `expandAll_of_pass` the cases of a pass differ in the amount only;
`passes_induction` carries an invariant of the passes to their result, which `passes_spare` keeps when
passes are left over; `restoreKilogram_units` says that the last step only gives the gram its prefix;
and `shape_reduce` is the shape of a result, in any registry.
-/

namespace Metrology

variable {α : Type} [Scalar α]

/-! ### Irreducible factors and offset scales -/

omit [Scalar α] in
theorem Definition.isReducible_eq_false {d : Definition α} : d.isReducible = false ↔ d.metric? = none := by
  cases d <;> simp [Definition.isReducible, Definition.metric?]

omit [Scalar α] in
theorem BaseUnit.isReducible_eq_false {u : BaseUnit α} :
    u.isReducible = false ↔ u.definition.metric? = none :=
  Definition.isReducible_eq_false

omit [Scalar α] in
theorem Factor.isCanonical_iff {u : Factor α} :
    u.isCanonical = true ↔ u.base.definition.metric? = none ∧ u.pre = none := by
  simp [Factor.isCanonical, BaseUnit.isReducible_eq_false]

omit [Scalar α] in
theorem Definition.affine_of_offsetScale? {d : Definition α} {scale : OffsetScale α}
    (h : d.offsetScale? = some scale) : d = .affine scale := by
  cases d <;> simp_all [Definition.offsetScale?]

omit [Scalar α] in
theorem Quantity.offsetScale?_ok {q : Quantity α} {scale : OffsetScale α} (h : q.offsetScale? = some scale) :
    ∃ u, q.units = [u] ∧ u.pre = none ∧ u.exponent.val = 1 ∧ u.base.definition = .affine scale := by
  unfold Quantity.offsetScale? at h
  split at h
  · rename_i u units
    unfold Factor.offsetScale? at h
    split at h
    · rename_i lone
      rw [Bool.and_eq_true, Option.isNone_iff_eq_none, Exponent.beq_one] at lone
      exact ⟨u, units, lone.1, lone.2, Definition.affine_of_offsetScale? h⟩
    · cases h
  · cases h

omit [Scalar α] in
theorem Quantity.offsetScale?_of_linear {q : Quantity α}
    (linear : ∀ u ∈ q.units, u.base.definition.offsetScale? = none) : q.offsetScale? = none := by
  rw [Option.eq_none_iff_forall_ne_some]
  intro scale lone
  obtain ⟨u, units, -, -, affine⟩ := offsetScale?_ok lone
  have absent := linear u (by rw [units]; exact List.mem_singleton_self u)
  rw [affine] at absent
  cases absent

namespace Registry
open Outcome Quantity

variable {r : Registry α} {q t start : Quantity α} {u : Factor α} {us vs : List (Factor α)} {x y : α}

/-! ### One pass -/

/-- The definition of a unit as a quantity, scaled by the prefix and the slope. -/
def scaledDefinition (u : Factor α) (q : Quantity α) : Quantity α :=
  { q with amount := q.amount * (u.multiplier * u.base.definition.slope) }

theorem expand_ok (h : r.expand x u = .ok (y, vs)) :
    (u.base.definition.metric? = none ∧
        y = (u.pre.elim x fun p => x * Scalar.pow p.multiplier u.exponent.val) ∧
        vs = [{ u with pre := none }]) ∨
      ∃ metric q power, u.base.definition.metric? = some metric ∧ r.parse metric = .ok q ∧
        (scaledDefinition u q).pow u.exponent = .ok power ∧ y = x * power.amount ∧ vs = power.units := by
  unfold expand at h
  split at h
  · rename_i irreducible
    cases h
    exact .inl ⟨irreducible, rfl, rfl⟩
  · rename_i metric defined
    obtain ⟨q, parsed, h⟩ := bind_ok h
    obtain ⟨power, raised, h⟩ := bind_ok h
    cases h
    exact .inr ⟨metric, q, power, defined, parsed, raised, rfl, rfl⟩

theorem expand_irreducible (irreducible : u.base.definition.metric? = none) :
    r.expand x u =
      .ok (u.pre.elim x fun p => x * Scalar.pow p.multiplier u.exponent.val, [{ u with pre := none }]) := by
  rw [expand, irreducible]

theorem expand_reducible {metric : String} {power : Quantity α} (defined : u.base.definition.metric? = some metric)
    (parsed : r.parse metric = .ok q) (raised : (scaledDefinition u q).pow u.exponent = .ok power) :
    r.expand x u = .ok (x * power.amount, power.units) := by
  rw [expand, defined]
  exact bind_ok_iff.mpr ⟨q, parsed, bind_ok_iff.mpr ⟨power, raised, rfl⟩⟩

theorem expandAll_cons_ok (h : r.expandAll x (u :: us) = .ok (y, vs)) :
    ∃ z front back, r.expand x u = .ok (z, front) ∧ r.expandAll z us = .ok (y, back) ∧ vs = front ++ back := by
  obtain ⟨⟨z, front⟩, first, h⟩ := bind_ok h
  obtain ⟨⟨w, back⟩, rest, h⟩ := bind_ok h
  cases h
  exact ⟨z, front, back, first, rest, rfl⟩

theorem expandAll_cons {ws : List (Factor α)} {z : α} (first : r.expand x u = .ok (y, vs))
    (rest : r.expandAll y us = .ok (z, ws)) : r.expandAll x (u :: us) = .ok (z, vs ++ ws) :=
  bind_ok_iff.mpr ⟨_, first, bind_ok_iff.mpr ⟨_, rest, rfl⟩⟩

/-- A pass reads off an offset scale that stands alone, or expands all factors. -/
theorem pass_ok (h : r.pass q = .ok t) :
    (∃ scale metric, q.offsetScale? = some scale ∧ r.parse scale.metric = .ok metric ∧
        Quantity.tidy ⟨scale.toMetric q.amount, metric.units⟩ = .ok t) ∨
      (q.offsetScale? = none ∧
        ∃ x us, r.expandAll q.amount q.units = .ok (x, us) ∧ Quantity.tidy ⟨x, us⟩ = .ok t) := by
  unfold pass at h
  split at h
  · rename_i scale lone
    obtain ⟨metric, parsed, h⟩ := bind_ok h
    exact .inl ⟨scale, metric, lone, parsed, h⟩
  · rename_i none
    obtain ⟨⟨x, us⟩, expanded, h⟩ := bind_ok h
    exact .inr ⟨none, x, us, expanded, h⟩

theorem pass_offset {scale : OffsetScale α} {metric : Quantity α} (lone : q.offsetScale? = some scale)
    (parsed : r.parse scale.metric = .ok metric) :
    r.pass q = Quantity.tidy ⟨scale.toMetric q.amount, metric.units⟩ := by
  rw [pass, lone]
  simp only [parsed]
  rfl

theorem pass_factors (several : q.offsetScale? = none) (expanded : r.expandAll q.amount q.units = .ok (x, us)) :
    r.pass q = Quantity.tidy ⟨x, us⟩ := by
  rw [pass, several]
  simp only [expanded]
  rfl

theorem expandAll_singleton (h : r.expand x u = .ok (y, vs)) : r.expandAll x [u] = .ok (y, vs) := by
  have last : r.expandAll y [] = .ok (y, []) := rfl
  rw [expandAll_cons h last, List.append_nil]

/-- The first power is the definition itself. -/
theorem expand_lone {scale : OffsetScale α} {metric : Quantity α} (one : u.exponent.val = 1)
    (affine : u.base.definition = .affine scale) (parsed : r.parse scale.metric = .ok metric) :
    ∃ y, r.expand x u = .ok (y, metric.units) := by
  have first : u.exponent = 1 := Exponent.val_inj.mp one
  have raised : (scaledDefinition u metric).pow u.exponent = .ok (scaledDefinition u metric) := by
    rw [first]
    rfl
  have defined : u.base.definition.metric? = some scale.metric := by rw [affine]; rfl
  have expanded := expand_reducible (x := x) defined parsed raised
  exact ⟨_, expanded⟩

/-- Only the amount tells an offset scale that stands alone from other factors: the units are those of
its definition. -/
theorem expandAll_of_pass (h : r.pass q = .ok t) :
    ∃ x y us, r.expandAll q.amount q.units = .ok (y, us) ∧ Quantity.tidy ⟨x, us⟩ = .ok t := by
  rcases pass_ok h with ⟨scale, metric, lone, parsed, tidied⟩ | ⟨-, x, us, expanded, tidied⟩
  · obtain ⟨u, units, -, one, affine⟩ := offsetScale?_ok lone
    obtain ⟨y, expanded⟩ := expand_lone (x := q.amount) one affine parsed
    exact ⟨_, y, metric.units, by rw [units]; exact expandAll_singleton expanded, tidied⟩
  · exact ⟨x, x, us, expanded, tidied⟩

theorem pass_of_expandAll (expanded : r.expandAll q.amount q.units = .ok (y, us)) :
    ∃ x, r.pass q = Quantity.tidy ⟨x, us⟩ := by
  cases lone : q.offsetScale? with
  | none => exact ⟨y, pass_factors lone expanded⟩
  | some scale =>
    obtain ⟨u, units, -, one, affine⟩ := offsetScale?_ok lone
    rw [units] at expanded
    obtain ⟨z, front, back, first, -, -⟩ := expandAll_cons_ok expanded
    rcases expand_ok first with ⟨irreducible, -, -⟩ | ⟨text, metric, -, defined, parsed, -, -, -⟩
    · rw [affine] at irreducible
      cases irreducible
    · rw [affine] at defined
      obtain rfl : scale.metric = text := Option.some.inj defined
      obtain ⟨_, again⟩ := expand_lone (x := q.amount) one affine parsed
      obtain ⟨-, rfl⟩ := Prod.mk.inj (Except.ok.inj ((expandAll_singleton again).symm.trans expanded))
      exact ⟨_, pass_offset lone parsed⟩

theorem covers_expand (indexed : r.Indexed) (member : u.base ∈ r.units) (h : r.expand x u = .ok (y, vs)) :
    r.Covers vs := by
  rcases expand_ok h with ⟨-, -, rfl⟩ | ⟨metric, q, power, -, parsed, raised, -, rfl⟩
  · exact covers_singleton.mpr member
  · have inside : r.Covers q.units := covers_parse indexed parsed
    exact covers_pow (q := scaledDefinition u q) inside raised

theorem covers_expandAll (indexed : r.Indexed) (covers : r.Covers us) (h : r.expandAll x us = .ok (y, vs)) :
    r.Covers vs := by
  induction us generalizing x vs with
  | nil =>
    cases h
    exact covers
  | cons u us ih =>
    rw [covers_cons] at covers
    obtain ⟨z, front, back, first, rest, rfl⟩ := expandAll_cons_ok h
    exact covers_append.mpr ⟨covers_expand indexed covers.1 first, ih covers.2 rest⟩

theorem covers_pass (indexed : r.Indexed) (covers : r.Covers q.units) (h : r.pass q = .ok t) :
    r.Covers t.units := by
  obtain ⟨x, y, us, expanded, tidied⟩ := expandAll_of_pass h
  exact tidy_covers (q := ⟨x, us⟩) (covers_expandAll indexed covers expanded) tidied

theorem shape_pass (indexed : r.Indexed) (covers : r.Covers q.units) (h : r.pass q = .ok t) : Tidy t.units := by
  obtain ⟨x, y, us, expanded, tidied⟩ := expandAll_of_pass h
  exact tidy_shape (q := ⟨x, us⟩) indexed.toNumbered (covers_expandAll indexed covers expanded) tidied

/-! ### All passes -/

/-- An invariant of the passes holds of their result, which has canonical factors only. -/
theorem passes_induction {P : Quantity α → Prop} (step : ∀ q t, P q → r.pass q = .ok t → P t) {n : Nat}
    (first : P q) (h : r.passes start n q = .ok t) : P t ∧ ∀ u ∈ t.units, u.isCanonical = true := by
  induction n generalizing q with
  | zero =>
    unfold passes at h
    split at h
    · rename_i canonical
      cases h
      exact ⟨first, List.all_eq_true.mp canonical⟩
    · cases h
  | succ n ih =>
    unfold passes at h
    split at h
    · rename_i canonical
      cases h
      exact ⟨first, List.all_eq_true.mp canonical⟩
    · obtain ⟨next, passed, h⟩ := bind_ok h
      exact ih (step _ _ first passed) h

theorem passes_of_canonical (canonical : ∀ u ∈ q.units, u.isCanonical = true) (n : Nat) :
    r.passes start n q = .ok q := by
  unfold passes
  rw [if_pos (List.all_eq_true.mpr canonical)]

/-- Passes to spare and the quantity that an error would name have no part in a result. -/
theorem passes_spare (start' : Quantity α) {n m : Nat} (enough : n ≤ m) (h : r.passes start n q = .ok t) :
    r.passes start' m q = .ok t := by
  induction n generalizing q m with
  | zero =>
    unfold passes at h
    split at h
    · rename_i canonical
      cases h
      exact passes_of_canonical (List.all_eq_true.mp canonical) m
    · cases h
  | succ n ih =>
    obtain ⟨m, rfl⟩ : ∃ k, m = k + 1 := ⟨m - 1, by omega⟩
    unfold passes at h ⊢
    by_cases canonical : q.units.all Factor.isCanonical = true
    · rwa [if_pos canonical] at h ⊢
    · rw [if_neg canonical] at h ⊢
      obtain ⟨next, passed, h⟩ := bind_ok h
      exact bind_ok_iff.mpr ⟨next, passed, ih (Nat.le_of_succ_le_succ enough) h⟩

theorem reduce_ok (h : r.reduce q = .ok t) :
    ∃ tidied reduced, q.tidy = .ok tidied ∧ r.passes q maxPasses tidied = .ok reduced ∧
      t = restoreKilogram reduced := by
  obtain ⟨tidied, first, h⟩ := bind_ok h
  obtain ⟨reduced, passed, h⟩ := bind_ok h
  exact ⟨tidied, reduced, first, passed, pure_ok h⟩

theorem reduce_of_passes {tidied reduced : Quantity α} (first : q.tidy = .ok tidied)
    (passed : r.passes q maxPasses tidied = .ok reduced) : r.reduce q = .ok (restoreKilogram reduced) :=
  bind_ok_iff.mpr ⟨tidied, first, bind_ok_iff.mpr ⟨reduced, passed, rfl⟩⟩

/-- A reduction without a pass. -/
theorem reduce_of_no_pass {tidied : Quantity α} (first : q.tidy = .ok tidied)
    (canonical : ∀ u ∈ tidied.units, u.isCanonical = true) : r.reduce q = .ok (restoreKilogram tidied) :=
  reduce_of_passes first (passes_of_canonical canonical maxPasses)

/-- A reduction of one pass. -/
theorem reduce_of_pass {tidied next : Quantity α} (first : q.tidy = .ok tidied) {u : Factor α}
    (member : u ∈ tidied.units) (unfinished : u.isCanonical = false) (passed : r.pass tidied = .ok next)
    (canonical : ∀ u ∈ next.units, u.isCanonical = true) : r.reduce q = .ok (restoreKilogram next) := by
  have reducible : ¬tidied.units.all Factor.isCanonical = true := by
    intro all
    rw [List.all_eq_true.mp all u member] at unfinished
    cases unfinished
  have passes : r.passes q maxPasses tidied = .ok next := by
    obtain ⟨n, some⟩ : ∃ n, maxPasses = n + 1 := ⟨_, rfl⟩
    rw [some, Registry.passes, if_neg reducible]
    exact bind_ok_iff.mpr ⟨next, passed, passes_of_canonical canonical n⟩
  exact reduce_of_passes first passes

/-! ### Kilograms -/

/-- The prefix that a factor has at the end: that of the kilogram for the gram. -/
def withKilogram (u : Factor α) : Factor α :=
  if isGram u then { u with pre := Prefix.named? "k" } else u

omit [Scalar α] in
theorem isGram_iff : isGram u = true ↔ u.base.symbol = "g" ∧ u.base.definition.metric? = none := by
  simp [isGram, BaseUnit.isReducible_eq_false]

/-- Only the first gram changes. -/
theorem kilogramUnits_split {gram : Factor α} (found : us.find? isGram = some gram) :
    ∃ front back, us = front ++ gram :: back ∧
      kilogramUnits us = front ++ { gram with pre := Prefix.named? "k" } :: back := by
  induction us with
  | nil => cases found
  | cons u us ih =>
    rw [kilogramUnits]
    by_cases here : isGram u = true
    · rw [List.find?_cons_of_pos here] at found
      obtain rfl := Option.some.inj found
      exact ⟨[], us, rfl, if_pos here⟩
    · rw [List.find?_cons_of_neg here] at found
      obtain ⟨front, back, rfl, after⟩ := ih found
      exact ⟨u :: front, back, rfl, by rw [if_neg here, after]; rfl⟩

theorem withKilogram_base : (withKilogram u).base = u.base := by
  unfold withKilogram
  split <;> rfl

theorem withKilogram_exponent : (withKilogram u).exponent = u.exponent := by
  unfold withKilogram
  split <;> rfl

theorem kilogramUnits_eq_map (distinct : (us.map (·.base.symbol)).Nodup) :
    kilogramUnits us = us.map withKilogram := by
  induction us with
  | nil => rfl
  | cons u us ih =>
    rw [List.map_cons, List.nodup_cons] at distinct
    rw [List.map_cons, kilogramUnits, withKilogram]
    by_cases gram : isGram u = true
    · rw [if_pos gram, if_pos gram]
      congr 1
      refine (List.map_id us).symm.trans (List.map_congr_left fun v member => ?_)
      have other : ¬isGram v = true := fun gram' =>
        distinct.1 (List.mem_map.mpr ⟨v, member, (isGram_iff.mp gram').1.trans (isGram_iff.mp gram).1.symm⟩)
      rw [withKilogram, if_neg other]
      rfl
    · rw [if_neg gram, if_neg gram, ih distinct.2]

theorem restoreKilogram_units (distinct : (q.units.map (·.base.symbol)).Nodup) :
    (restoreKilogram q).units = q.units.map withKilogram := by
  unfold restoreKilogram
  split
  · rename_i absent
    rw [List.find?_eq_none] at absent
    refine (List.map_id _).symm.trans (List.map_congr_left fun u member => ?_)
    rw [withKilogram, if_neg (absent u member)]
    rfl
  · exact kilogramUnits_eq_map distinct

theorem weigh_withKilogram {M : Type} [AddCommGroup M] (f : BaseUnit α → M) :
    weigh f (us.map withKilogram) = weigh f us := by
  rw [weigh, List.map_map]
  simp only [Function.comp_def, withKilogram_base, withKilogram_exponent]
  rfl

/-- A reduction has tidy canonical factors, with the prefix of the kilogram where there is mass. -/
theorem shape_reduce (indexed : r.Indexed) (covers : r.Covers q.units) (h : r.reduce q = .ok t) :
    ∃ reduced : Quantity α, r.Covers reduced.units ∧ Tidy reduced.units ∧
      (∀ u ∈ reduced.units, u.base.definition.metric? = none ∧ u.pre = none) ∧
      t.units = reduced.units.map withKilogram := by
  obtain ⟨tidied, reduced, first, passed, rfl⟩ := reduce_ok h
  obtain ⟨⟨inside, shape⟩, canonical⟩ := passes_induction
    (P := fun q => r.Covers q.units ∧ Tidy q.units)
    (fun _ _ before step => ⟨covers_pass indexed before.1 step, shape_pass indexed before.1 step⟩)
    ⟨tidy_covers covers first, tidy_shape indexed.toNumbered covers first⟩ passed
  exact ⟨reduced, inside, shape, fun u member => Factor.isCanonical_iff.mp (canonical u member),
    restoreKilogram_units shape.distinct⟩

theorem irreducible_reduce (indexed : r.Indexed) (covers : r.Covers q.units) (h : r.reduce q = .ok t) :
    ∀ w ∈ t.units, w.base.definition.metric? = none := by
  obtain ⟨reduced, -, -, canonical, units⟩ := shape_reduce indexed covers h
  intro w member
  rw [units] at member
  obtain ⟨u, present, rfl⟩ := List.mem_map.mp member
  rw [withKilogram_base]
  exact (canonical u present).1

theorem tidy_reduce (indexed : r.Indexed) (covers : r.Covers q.units) (h : r.reduce q = .ok t) : Tidy t.units := by
  obtain ⟨reduced, -, shape, -, units⟩ := shape_reduce indexed covers h
  rw [units]
  refine ⟨?_, ?_, ?_⟩
  · rw [List.map_map]
    simpa only [Function.comp_def, withKilogram_base] using shape.distinct
  · intro w member
    obtain ⟨u, present, rfl⟩ := List.mem_map.mp member
    rw [withKilogram_exponent]
    exact shape.nonzero u present
  · rw [List.pairwise_map]
    refine shape.ordered.imp fun before => ?_
    unfold Factor.Before at before ⊢
    rwa [withKilogram_base, withKilogram_base, withKilogram_exponent, withKilogram_exponent]

theorem covers_reduce (indexed : r.Indexed) (covers : r.Covers q.units) (h : r.reduce q = .ok t) :
    r.Covers t.units := by
  obtain ⟨reduced, inside, -, -, units⟩ := shape_reduce indexed covers h
  intro w member
  rw [units] at member
  obtain ⟨u, present, rfl⟩ := List.mem_map.mp member
  rw [withKilogram_base]
  exact inside u present

end Registry

end Metrology
