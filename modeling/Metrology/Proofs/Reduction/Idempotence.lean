import Metrology.Proofs.Quantity.TidyForm
import Metrology.Proofs.Reduction.Canonical
import Metrology.Proofs.Scalar.Near

/-!
Reducing what is reduced. A canonical quantity without mass is a fixed point of reduction. One with
mass takes a detour over grams: its amount is multiplied by a power of a thousand and divided by it
again, which rounding, overflow and underflow may notice.
-/

namespace Metrology.Registry
open Outcome Quantity

section Detour

variable {α : Type} [Scalar α] {r : Registry α} {q t : Quantity α} {u gram : Factor α} {us : List (Factor α)}
  {x : α}

/-! ### Without mass -/

theorem canonical_of_light (reduced : Reduced us) (light : ∀ u ∈ us, u.base.symbol ≠ "g") :
    ∀ u ∈ us, u.isCanonical = true := by
  intro u member
  rw [Factor.isCanonical_iff]
  refine ⟨reduced.irreducible u member, ?_⟩
  rw [reduced.prefixes u member, canonicalPrefix?, if_neg (light u member)]

theorem restoreKilogram_light (light : ∀ u ∈ q.units, u.base.symbol ≠ "g") : restoreKilogram q = q := by
  have absent : q.units.find? isGram = none := by
    rw [List.find?_eq_none]
    exact fun u member gram => light u member (isGram_iff.mp gram).1
  rw [restoreKilogram, absent]

theorem reduce_light [Scalar.Lawful α] (reduced : Reduced q.units) (light : ∀ u ∈ q.units, u.base.symbol ≠ "g") :
    r.reduce q = .ok q := by
  rw [reduce_of_no_pass (tidy_fixed reduced.shape) (canonical_of_light reduced light), restoreKilogram_light light]

/-! ### With mass -/

/-- The factor in grams instead of kilograms. -/
def unprefixed (u : Factor α) : Factor α :=
  { u with pre := none }

theorem withKilogram_unprefixed (irreducible : u.base.definition.metric? = none)
    (pre : u.pre = canonicalPrefix? u.base) : withKilogram (unprefixed u) = u := by
  have base : (withKilogram (unprefixed u)).base = u.base := withKilogram_base
  have chosen : (withKilogram (unprefixed u)).pre = u.pre :=
    (withKilogram_pre (u := unprefixed u) irreducible rfl).trans pre.symm
  have exponent : (withKilogram (unprefixed u)).exponent = u.exponent := withKilogram_exponent
  generalize withKilogram (unprefixed u) = w at base chosen exponent
  cases u
  cases w
  cases base
  cases chosen
  cases exponent
  rfl

theorem expand_light (irreducible : u.base.definition.metric? = none) (bare : u.pre = none) :
    r.expand x u = .ok (x, [unprefixed u]) := by
  rw [expand_irreducible irreducible, bare]
  rfl

theorem expand_mass (irreducible : u.base.definition.metric? = none) (mass : u.base.symbol = "g")
    (pre : u.pre = canonicalPrefix? u.base) :
    r.expand x u = .ok (x * Scalar.pow (Scalar.ofFloat 1000) u.exponent.val, [unprefixed u]) := by
  have kilo : (1e3 : Float) = 1000 := by decide +kernel
  rw [expand_irreducible irreducible, pre, canonicalPrefix?, if_pos mass]
  show Except.ok (x * Scalar.pow (Scalar.ofFloat 1e3) u.exponent.val, _) = _
  rw [kilo]
  rfl

theorem expandAll_light (irreducible : ∀ u ∈ us, u.base.definition.metric? = none)
    (bare : ∀ u ∈ us, u.pre = none) : r.expandAll x us = .ok (x, us.map unprefixed) := by
  induction us with
  | nil => rfl
  | cons u us ih =>
    rw [List.forall_mem_cons] at irreducible bare
    have rest := ih irreducible.2 bare.2
    exact expandAll_cons (expand_light irreducible.1 bare.1) rest

/-- A pass over a canonical list with the mass `gram` multiplies by its power of a thousand. -/
theorem expandAll_mass (irreducible : ∀ u ∈ us, u.base.definition.metric? = none)
    (prefixes : ∀ u ∈ us, u.pre = canonicalPrefix? u.base) (distinct : (us.map (·.base.symbol)).Nodup)
    (member : gram ∈ us) (mass : gram.base.symbol = "g") :
    r.expandAll x us = .ok (x * Scalar.pow (Scalar.ofFloat 1000) gram.exponent.val, us.map unprefixed) := by
  induction us with
  | nil => cases member
  | cons u us ih =>
    rw [List.forall_mem_cons] at irreducible prefixes
    rw [List.map_cons, List.nodup_cons] at distinct
    rcases List.mem_cons.mp member with rfl | member
    · have light : ∀ v ∈ us, v.pre = none := by
        intro v present
        have other : v.base.symbol ≠ "g" := fun same =>
          distinct.1 (List.mem_map.mpr ⟨v, present, same.trans mass.symm⟩)
        rw [prefixes.2 v present, canonicalPrefix?, if_neg other]
      have rest := expandAll_light (r := r) (x := x * Scalar.pow (Scalar.ofFloat 1000) gram.exponent.val)
        irreducible.2 light
      exact expandAll_cons (expand_mass irreducible.1 mass prefixes.1) rest
    · have other : u.base.symbol ≠ "g" := fun same =>
        distinct.1 (List.mem_map.mpr ⟨gram, member, mass.trans same.symm⟩)
      have bare : u.pre = none := by rw [prefixes.1, canonicalPrefix?, if_neg other]
      have rest := ih irreducible.2 prefixes.2 distinct.2 member
      exact expandAll_cons (expand_light irreducible.1 bare) rest

omit [Scalar α] in
theorem tidy_unprefixed (shape : Tidy us) : Tidy (us.map unprefixed) := by
  refine ⟨?_, ?_, ?_⟩
  · rw [List.map_map]
    exact shape.distinct
  · intro w member
    obtain ⟨u, present, rfl⟩ := List.mem_map.mp member
    exact shape.nonzero u present
  · rw [List.pairwise_map]
    exact shape.ordered

omit [Scalar α] in
theorem find?_isGram (distinct : (us.map (·.base.symbol)).Nodup) (member : gram ∈ us)
    (isMass : isGram gram = true) : us.find? isGram = some gram := by
  obtain ⟨u, found⟩ : ∃ u, us.find? isGram = some u := by
    rw [← Option.isSome_iff_exists, List.find?_isSome]
    exact ⟨gram, member, isMass⟩
  have symbol : u.base.symbol = gram.base.symbol :=
    (isGram_iff.mp (List.find?_some found)).1.trans (isGram_iff.mp isMass).1.symm
  rw [found, List.inj_on_of_nodup_map distinct (List.mem_of_find?_eq_some found) member symbol]

/-- The last step divides by the power of a thousand of the mass. -/
theorem restoreKilogram_mass (reduced : Reduced us) (member : gram ∈ us) (mass : gram.base.symbol = "g") :
    restoreKilogram ⟨x, us.map unprefixed⟩ =
      ⟨x / Scalar.pow (Scalar.ofFloat 1000) gram.exponent.val, us⟩ := by
  have distinct : ((us.map unprefixed).map (·.base.symbol)).Nodup := (tidy_unprefixed reduced.shape).distinct
  have found : (us.map unprefixed).find? isGram = some (unprefixed gram) :=
    find?_isGram distinct (List.mem_map_of_mem member) (isGram_iff.mpr ⟨mass, reduced.irreducible gram member⟩)
  have units : kilogramUnits (us.map unprefixed) = us := by
    rw [kilogramUnits_eq_map distinct, List.map_map]
    refine (List.map_congr_left fun u present => ?_).trans (List.map_id us)
    exact withKilogram_unprefixed (reduced.irreducible u present) (reduced.prefixes u present)
  rw [restoreKilogram, found]
  simp only [units]
  rfl

/-- Reduction of a canonical quantity with mass: the detour over grams. -/
theorem reduce_detour [Scalar.Lawful α] (reduced : Reduced q.units) (member : gram ∈ q.units)
    (mass : gram.base.symbol = "g") :
    r.reduce q = .ok ⟨q.amount * Scalar.pow (Scalar.ofFloat 1000) gram.exponent.val /
      Scalar.pow (Scalar.ofFloat 1000) gram.exponent.val, q.units⟩ := by
  have several : q.offsetScale? = none := by
    refine offsetScale?_of_linear ?_
    intro u present
    have irreducible := reduced.irreducible u present
    cases kind : u.base.definition <;> simp_all [Definition.offsetScale?, Definition.metric?]
  have expanded := expandAll_mass (r := r) (x := q.amount) reduced.irreducible reduced.prefixes
    reduced.shape.distinct member mass
  have passed := pass_factors several expanded
  have tidied := tidy_fixed (q := ⟨q.amount * Scalar.pow (Scalar.ofFloat 1000) gram.exponent.val, _⟩)
    (tidy_unprefixed reduced.shape)
  have unfinished : gram.isCanonical = false := by
    rw [← Bool.not_eq_true, Factor.isCanonical_iff, reduced.prefixes gram member, canonicalPrefix?, if_pos mass]
    rintro ⟨-, bare⟩
    cases bare
  have canonical : ∀ u ∈ q.units.map unprefixed, u.isCanonical = true := by
    intro w present
    obtain ⟨u, listed, rfl⟩ := List.mem_map.mp present
    exact Factor.isCanonical_iff.mpr ⟨reduced.irreducible u listed, rfl⟩
  rw [reduce_of_pass (tidy_fixed reduced.shape) member unfinished (passed.trans tidied) canonical,
    restoreKilogram_mass reduced member mass]

theorem reduce_mass {r : Registry Float} {q : Quantity Float} {gram : Factor Float} (reduced : Reduced q.units)
    (member : gram ∈ q.units) (mass : gram.base.symbol = "g") :
    r.reduce q =
      .ok ⟨q.amount * Scalar.pow 1000 gram.exponent.val / Scalar.pow 1000 gram.exponent.val, q.units⟩ :=
  reduce_detour reduced member mass

/-- Reduction keeps the units of a canonical quantity. -/
theorem reduce_units_of_reduced [Scalar.Lawful α] (reduced : Reduced q.units) :
    ∃ x, r.reduce q = .ok ⟨x, q.units⟩ := by
  by_cases light : ∀ u ∈ q.units, u.base.symbol ≠ "g"
  · exact ⟨q.amount, reduce_light reduced light⟩
  · push Not at light
    obtain ⟨gram, member, mass⟩ := light
    exact ⟨_, reduce_detour reduced member mass⟩

/-- Over exact numbers a canonical quantity is a fixed point. -/
theorem exact_reduce_of_reduced {r : Registry Rat} {q : Quantity Rat} (reduced : Reduced q.units) :
    r.reduce q = .ok q := by
  by_cases light : ∀ u ∈ q.units, u.base.symbol ≠ "g"
  · exact reduce_light reduced light
  · push Not at light
    obtain ⟨gram, member, mass⟩ := light
    have thousand : (1000 : Rat) ^ gram.exponent.val ≠ 0 := zpow_ne_zero _ (by norm_num)
    rw [reduce_detour reduced member mass, Scalar.pow_eq_zpow, Scalar.ofFloat_thousand,
      mul_div_cancel_right₀ _ thousand]

/-! ### Results of a reduction -/

theorem mem_kilogramUnits (found : us.find? isGram = some gram) :
    { gram with pre := Prefix.named? "k" } ∈ kilogramUnits us := by
  obtain ⟨front, back, -, after⟩ := kilogramUnits_split found
  rw [after]
  exact List.mem_append_right front List.mem_cons_self

/-- The amount of a result with mass is a quotient by the power that the next reduction multiplies by. -/
theorem exists_quotient {r : Registry Float} {q t : Quantity Float} {gram : Factor Float} (reduced : Reduced t.units)
    (h : r.reduce q = .ok t) (member : gram ∈ t.units) (mass : gram.base.symbol = "g") :
    ∃ n, t.amount = n / Scalar.pow 1000 gram.exponent.val := by
  have irreducible := reduced.irreducible gram member
  have distinct := reduced.shape.distinct
  obtain ⟨-, last, -, -, rfl⟩ := reduce_ok h
  unfold restoreKilogram at member distinct ⊢
  split at member
  · rename_i absent
    rw [List.find?_eq_none] at absent
    exact absurd (isGram_iff.mpr ⟨mass, irreducible⟩) (absent gram member)
  · rename_i first found
    simp only [found] at distinct ⊢
    have symbol : first.base.symbol = "g" := (isGram_iff.mp (List.find?_some found)).1
    have same : { first with pre := Prefix.named? "k" } = gram :=
      List.inj_on_of_nodup_map distinct (mem_kilogramUnits found) member (symbol.trans mass.symm)
    rw [← same]
    exact ⟨last.amount, rfl⟩

end Detour

/-! ### Equality after the detour -/

theorem isFinite_of_near {x y : Float} (finite : y.isFinite = true)
    (near : Scalar.isNear Scalar.defaultTolerance x y = true) : x.isFinite = true := by
  rcases Double.isNear_iff.mp near with equal | ⟨hx, -, -⟩
  · obtain ⟨-, -, rfl | ⟨rfl, -⟩ | ⟨rfl, -⟩⟩ := Float.beq_iff_ne_nan_and_eq.mp equal
    · exact finite
    · decide +kernel
    · decide +kernel
  · exact hx

theorem beq_iff_isNear (q : Quantity Float) (x : Float) :
    ((⟨x, q.units⟩ : Quantity Float) == q) = true ↔
      Scalar.isNear Scalar.defaultTolerance x q.amount = true := by
  have same : (⟨x, q.units⟩ : Quantity Float).sameUnits q = true := BEq.rfl
  show (_ && (⟨x, q.units⟩ : Quantity Float).sameUnits q) = true ↔ _
  rw [same, Bool.and_true]

theorem isNear_self {x : Float} (finite : x.isFinite = true) :
    Scalar.isNear Scalar.defaultTolerance x x = true := by
  refine Double.isNear_iff.mpr (.inl (Float.beq_self_iff.mpr ?_))
  rintro rfl
  exact absurd finite (by decide +kernel)

/-- The detour over grams leaves an amount near itself, if it leaves it finite. -/
theorem isNear_mass {x : Float} {e : Int} (finite : (x * Scalar.pow 1000 e / Scalar.pow 1000 e).isFinite = true)
    (kept : 0 ≤ e ∨ 2 ^ (-1022 : Int) ≤ |Scalar.exactValue (x * Scalar.pow 1000 e)| ∨
      ∃ n, x = n / Scalar.pow 1000 e) :
    Scalar.isNear Scalar.defaultTolerance (x * Scalar.pow 1000 e / Scalar.pow 1000 e) x = true := by
  refine Double.isNear_detour finite ?_
  rcases kept with positive | normal | quotient
  · left
    have power := (Double.finite_of_mul (Double.finite_of_div finite).1).2
    have one := Double.atLeast_pow positive power
    exact le_trans (by linarith) (le_abs_self _)
  · right; left
    refine le_trans ?_ normal
    rw [Double.leastHalf, ← zpow_natCast, ← zpow_add₀ two_ne_zero]
    exact zpow_le_zpow_right₀ one_le_two (by norm_num)
  · exact .inr (.inr quotient)

/-- Reduction of a canonical quantity, such as a result of reduction, succeeds and keeps its units.
Without mass it is the identity. With mass the amount takes the detour over grams, and where that does
not underflow, the result is equal to the quantity exactly when it is finite. -/
theorem standard_reduce_reduced {q : Quantity Float} (finite : q.amount.isFinite = true)
    (canonical : Reduced q.units ∨ ∃ p, standard.Covers p.units ∧ standard.reduce p = .ok q) :
    ∃ t, standard.reduce q = .ok t ∧ t.units = q.units ∧
      ((∀ u ∈ q.units, u.base.symbol ≠ "g") → t = q) ∧
      (∀ u ∈ q.units, u.base.symbol = "g" →
        t.amount = q.amount * Scalar.pow 1000 u.exponent.val / Scalar.pow 1000 u.exponent.val) ∧
      ((∀ u ∈ q.units, u.base.symbol = "g" → 0 ≤ u.exponent.val ∨
          2 ^ (-1022 : Int) ≤ |Scalar.exactValue (q.amount * Scalar.pow 1000 u.exponent.val)| ∨
          ∃ p, standard.Covers p.units ∧ standard.reduce p = .ok q) →
        ((t == q) = true ↔ t.amount.isFinite = true)) := by
  have reduced : Reduced q.units := by
    rcases canonical with reduced | ⟨p, covers, reduces⟩
    · exact reduced
    · exact reduced_reduce standard_indexed covers reduces
  by_cases light : ∀ u ∈ q.units, u.base.symbol ≠ "g"
  · refine ⟨q, reduce_light reduced light, rfl, fun _ => rfl, ?_, ?_⟩
    · intro u member mass
      exact absurd mass (light u member)
    · intro _
      exact iff_of_true ((beq_iff_isNear q q.amount).mpr (isNear_self finite)) finite
  · push Not at light
    obtain ⟨gram, member, mass⟩ := light
    refine ⟨_, reduce_mass reduced member mass, rfl, ?_, ?_, ?_⟩
    · intro light
      exact absurd mass (light gram member)
    · intro u present same
      rw [List.inj_on_of_nodup_map reduced.shape.distinct present member (same.trans mass.symm)]
    · intro kept
      refine (beq_iff_isNear q _).trans ⟨isFinite_of_near finite, ?_⟩
      intro result
      refine isNear_mass (x := q.amount) (e := gram.exponent.val) result ?_
      rcases kept gram member mass with positive | normal | ⟨p, -, reduces⟩
      · exact .inl positive
      · exact .inr (.inl normal)
      · exact .inr (.inr (exists_quotient reduced reduces member mass))

/-- `x` kilograms to the power `e` -/
def kilograms (x : Float) (e : Exponent) : Quantity Float :=
  ⟨x, [⟨Builtin.gram, canonicalPrefix? Builtin.gram, e⟩]⟩

theorem kilograms_reduced (x : Float) {e : Exponent} (nonzero : e.val ≠ 0) : Reduced (kilograms x e).units := by
  refine ⟨tidy_singleton nonzero, ?_, ?_⟩
  · rw [kilograms, List.forall_mem_singleton]
    rfl
  · rw [kilograms, List.forall_mem_singleton]

theorem standard_reduce_reduced_kilograms :
    ∃ t, standard.reduce (kilograms 3 1) = .ok t ∧ t.units = (kilograms 3 1).units ∧
      (t == kilograms 3 1) = true := by
  obtain ⟨t, reduces, units, -, detour, equal⟩ :=
    standard_reduce_reduced (q := kilograms 3 1) (by decide +kernel) (.inl (kilograms_reduced 3 one_ne_zero))
  have amount := detour _ List.mem_cons_self rfl
  refine ⟨t, reduces, units, (equal ?_).mpr ?_⟩
  · rw [kilograms, List.forall_mem_singleton]
    exact fun _ => .inl (by decide)
  · rw [amount]
    decide +kernel

/-- The detour of `1e307 kg` over grams overflows. -/
theorem reduce_heavy :
    Reduced (kilograms 1e307 1).units ∧ standard.Covers (kilograms 1e307 1).units ∧
      (kilograms 1e307 1).amount.isFinite = true ∧
      ∃ t, standard.reduce (kilograms 1e307 1) = .ok t ∧ t.amount.isInf = true ∧
        (t == kilograms 1e307 1) = false := by
  have reduced : Reduced (kilograms 1e307 1).units := kilograms_reduced 1e307 one_ne_zero
  refine ⟨reduced, covers_singleton.mpr Builtin.gram_mem, by decide +kernel, _,
    reduce_mass reduced List.mem_cons_self rfl, by decide +kernel, ?_⟩
  rw [← Bool.not_eq_true, beq_iff_isNear (kilograms 1e307 1)]
  decide +kernel

end Metrology.Registry
