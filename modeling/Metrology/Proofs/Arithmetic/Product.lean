import Metrology.Proofs.Arithmetic.Dimension
import Metrology.Proofs.Reduction.Idempotence

/-!
Products. Where two lists of distinct bases are merged, each sum of exponents has one summand from each
list, so neither the outcome nor the result depends on which list comes first. Of doubles no more is
used than that they are `Scalar.Lawful`. Main statement: `multiply_laws`.
-/

namespace Metrology

variable {α : Type}

namespace Quantity
open Outcome

variable [Scalar α] {u v w : Factor α} {us vs ws : List (Factor α)} {x y : α}

/-! ### When two lists can be merged -/

/-- The exponents of the bases that both lists have can be added. -/
def Summable (us vs : List (Factor α)) : Prop :=
  ∀ u ∈ us, ∀ v ∈ vs, u.sameBase v = true → ∃ e, u.exponent.add? v.exponent = some e

omit [Scalar α] in
theorem Summable.symm (summable : Summable us vs) : Summable vs us := by
  intro v hv u hu same
  obtain ⟨e, sum⟩ := summable u hu v hv (Factor.sameBase_iff.mpr (Factor.sameBase_iff.mp same).symm)
  exact ⟨e, (Exponent.add?_comm _ _).trans sum⟩

omit [Scalar α] in
theorem summable_concat : Summable us (vs ++ [v]) ↔ Summable us vs ∧ Summable us [v] := by
  simp only [Summable, List.forall_mem_append, forall_and]

theorem absorb_ok_iff (distinct : (vs.map (·.base.symbol)).Nodup) :
    (∃ ws y, absorb u x vs = .ok (ws, y)) ↔ Summable vs [u] := by
  simp only [Summable, List.forall_mem_singleton]
  refine ⟨?_, absorb_of_fits⟩
  rintro ⟨ws, y, absorbed⟩ v member same
  rcases absorb_ok absorbed with ⟨fresh, -, -⟩ | ⟨front, w, back, e, rfl, sameW, sum, -, -⟩
  · exact absurd same (fresh v member)
  · have symbols : v.base.symbol = w.base.symbol :=
      (Factor.sameBase_iff.mp same).trans (Factor.sameBase_iff.mp sameW).symm
    obtain rfl : v = w := List.inj_on_of_nodup_map distinct member (by simp) symbols
    exact ⟨e, Exponent.add?_eq_some_iff.mpr sum⟩

/-- Factors of another base stay as they are. -/
theorem mem_absorb (h : absorb u x vs = .ok (ws, y)) (other : w.base.symbol ≠ u.base.symbol) :
    w ∈ ws ↔ w ∈ vs := by
  rcases absorb_ok h with ⟨-, rfl, -⟩ | ⟨front, v, back, e, rfl, same, -, rfl, -⟩
  · have new : w ≠ u := fun equal => other (equal ▸ rfl)
    simp [new]
  · rw [Factor.sameBase_iff] at same
    have old : w ≠ v := fun equal => other (equal ▸ same)
    have new : w ≠ joined v u e := fun equal => other (equal ▸ same)
    simp [old, new]

theorem mem_merge_append (distinct : (us.map (·.base.symbol)).Nodup)
    (other : w.base.symbol ∉ vs.map (·.base.symbol)) (h : merge (us ++ vs) = .ok (ws, x)) : w ∈ ws ↔ w ∈ us := by
  induction vs using List.reverseRecOn generalizing ws x with
  | nil =>
    rw [List.append_nil, merge_of_distinct distinct] at h
    cases h
    exact Iff.rfl
  | append_singleton vs v ih =>
    rw [List.map_append, List.mem_append, not_or] at other
    rw [← List.append_assoc] at h
    obtain ⟨before, y, merged, absorbed⟩ := merge_concat_ok.mp h
    rw [mem_absorb absorbed (by simpa using other.2)]
    exact ih other.1 merged

/-- Two lists of distinct bases are merged just where the exponents of their common bases add up. -/
theorem merge_append_ok_iff (hus : (us.map (·.base.symbol)).Nodup) (hvs : (vs.map (·.base.symbol)).Nodup) :
    (∃ ws x, merge (us ++ vs) = .ok (ws, x)) ↔ Summable us vs := by
  induction vs using List.reverseRecOn with
  | nil =>
    rw [List.append_nil]
    exact iff_of_true ⟨us, _, merge_of_distinct hus⟩ fun _ _ _ member => absurd member List.not_mem_nil
  | append_singleton vs v ih =>
    rw [List.map_append, List.nodup_append] at hvs
    have other : v.base.symbol ∉ vs.map (·.base.symbol) := fun listed => hvs.2.2 _ listed _ (by simp) rfl
    -- the last factor meets the factor with its base that `us` has, if any
    have last : ∀ {before y}, merge (us ++ vs) = .ok (before, y) → (Summable before [v] ↔ Summable us [v]) := by
      intro before y merged
      have members : ∀ w : Factor α, w.sameBase v = true → (w ∈ before ↔ w ∈ us) := by
        intro w same
        exact mem_merge_append hus (Factor.sameBase_iff.mp same ▸ other) merged
      simp only [Summable, List.forall_mem_singleton]
      exact forall_congr' fun w => ⟨fun fits member same => fits ((members w same).mpr member) same,
        fun fits member same => fits ((members w same).mp member) same⟩
    rw [summable_concat, ← ih hvs.1, ← List.append_assoc]
    constructor
    · rintro ⟨ws, x, h⟩
      obtain ⟨before, y, merged, absorbed⟩ := merge_concat_ok.mp h
      have fits := (absorb_ok_iff (merge_distinct merged)).mp ⟨ws, x, absorbed⟩
      exact ⟨⟨before, y, merged⟩, (last merged).mp fits⟩
    · rintro ⟨⟨before, y, merged⟩, fits⟩
      obtain ⟨ws, x, absorbed⟩ := (absorb_ok_iff (x := y) (merge_distinct merged)).mpr ((last merged).mpr fits)
      exact ⟨ws, x, merge_concat_ok.mpr ⟨before, y, merged, absorbed⟩⟩

theorem tidy_append_ok_iff (hus : (us.map (·.base.symbol)).Nodup) (hvs : (vs.map (·.base.symbol)).Nodup) :
    (∃ q, Quantity.tidy ⟨x, us ++ vs⟩ = .ok q) ↔ Summable us vs :=
  tidy_iff_merge.trans (merge_append_ok_iff hus hvs)

end Quantity

namespace Registry
open Outcome Quantity

variable [Scalar α] {r : Registry α} {a b c p q s t : Quantity α} {us ws : List (Factor α)} {x : α}

/-! ### Factors with their canonical prefixes -/

theorem canonicalPrefix?_congr {u v : BaseUnit α} (same : u.symbol = v.symbol) :
    canonicalPrefix? u = canonicalPrefix? v := by
  rw [canonicalPrefix?, canonicalPrefix?, same]

/-- No prefix is lost where each base has one prefix only. -/
theorem merge_prefixes (prefixes : ∀ u ∈ us, u.pre = canonicalPrefix? u.base) (h : merge us = .ok (ws, x)) :
    x = Scalar.one ∧ ∀ w ∈ ws, w.pre = canonicalPrefix? w.base := by
  refine merge_induction (P := fun us ws x => (∀ u ∈ us, u.pre = canonicalPrefix? u.base) →
    x = Scalar.one ∧ ∀ w ∈ ws, w.pre = canonicalPrefix? w.base) (fun _ => ⟨rfl, by simp⟩) ?_ h prefixes
  intro us u vs x ws y known absorbed prefixes
  rw [List.forall_mem_append, List.forall_mem_singleton] at prefixes
  obtain ⟨one, inside⟩ := known prefixes.1
  rcases absorb_ok absorbed with ⟨-, rfl, rfl⟩ | ⟨front, v, back, e, rfl, same, -, rfl, rfl⟩
  · refine ⟨one, ?_⟩
    rw [List.forall_mem_append, List.forall_mem_singleton]
    exact ⟨inside, prefixes.2⟩
  · rw [List.forall_mem_append, List.forall_mem_cons] at inside
    have agree : v.samePrefix u = true := by
      rw [Factor.samePrefix_iff, Factor.prefixSymbol?, Factor.prefixSymbol?, inside.2.1, prefixes.2,
        canonicalPrefix?_congr (Factor.sameBase_iff.mp same)]
    refine ⟨by rw [joinedScale, if_pos agree, one], ?_⟩
    rw [List.forall_mem_append, List.forall_mem_cons]
    refine ⟨inside.1, ?_, inside.2.2⟩
    rw [joined, if_pos agree]
    exact inside.2.1

/-! ### The product of reduced quantities -/

/-- What is known of the product `q` of the reduced quantities `s` and `t`. -/
structure IsProduct (r : Registry α) (s t q : Quantity α) : Prop where
  amount : q.amount = s.amount * t.amount
  covers : r.Covers q.units
  reduced : Reduced q.units
  dimension : r.dimensionOf q = r.dimensionOf s + r.dimensionOf t

theorem isProduct_tidy [Scalar.Lawful α] (numbered : r.Numbered) (hs : r.Covers s.units) (ht : r.Covers t.units)
    (left : Reduced s.units) (right : Reduced t.units)
    (h : Quantity.tidy ⟨s.amount * t.amount, s.units ++ t.units⟩ = .ok q) : IsProduct r s t q := by
  have covers : r.Covers (s.units ++ t.units) := covers_append.mpr ⟨hs, ht⟩
  have prefixes : ∀ u ∈ s.units ++ t.units, u.pre = canonicalPrefix? u.base :=
    List.forall_mem_append.mpr ⟨left.prefixes, right.prefixes⟩
  refine ⟨?_, tidy_covers (q := ⟨_, s.units ++ t.units⟩) covers h, ⟨?_, ?_, ?_⟩, ?_⟩
  · obtain ⟨ws, x, merged, rfl⟩ := tidy_ok h
    rw [(merge_prefixes prefixes merged).1, Scalar.Lawful.mul_one]
  · exact tidy_shape (q := ⟨_, s.units ++ t.units⟩) numbered covers h
  · intro w member
    obtain ⟨v, origin, base, -⟩ := tidy_origin h member
    rw [base]
    exact List.forall_mem_append.mpr ⟨left.irreducible, right.irreducible⟩ v origin
  · obtain ⟨ws, x, merged, rfl⟩ := tidy_ok h
    exact fun w member => (merge_prefixes prefixes merged).2 w (mem_sorted.mp member).1
  · rw [dimensionOf, weigh_tidy (q := ⟨_, s.units ++ t.units⟩) numbered covers h, weigh_append]
    rfl

theorem IsProduct.units_eq (numbered : r.Numbered) {s' t' : Quantity α} (left : IsProduct r s t p)
    (right : IsProduct r s' t' q)
    (same : r.dimensionOf s + r.dimensionOf t = r.dimensionOf s' + r.dimensionOf t') : p.units = q.units := by
  refine eq_of_reduced numbered left.covers right.covers left.reduced right.reduced ?_
  exact left.dimension.trans (same.trans right.dimension.symm)

theorem multiply_isProduct [Scalar.Lawful α] (indexed : r.Indexed) (ha : r.Covers a.units)
    (hb : r.Covers b.units) (first : r.reduce a = .ok s) (second : r.reduce b = .ok t)
    (h : r.multiply a b = .ok q) : IsProduct r s t q := by
  obtain ⟨s', t', first', second', tidied⟩ := multiply_ok h
  obtain rfl := Except.ok.inj (first.symm.trans first')
  obtain rfl := Except.ok.inj (second.symm.trans second')
  exact isProduct_tidy indexed.toNumbered (covers_reduce indexed ha first) (covers_reduce indexed hb second)
    (reduced_reduce indexed ha first) (reduced_reduce indexed hb second) tidied

/-! ### Commutativity and the unit -/

theorem multiply_comm [Scalar.Lawful α] (indexed : r.Indexed) (ha : r.Covers a.units) (hb : r.Covers b.units)
    (h : r.multiply a b = .ok q) : r.multiply b a = .ok q := by
  obtain ⟨s, t, first, second, tidied⟩ := multiply_ok h
  have left := reduced_reduce indexed ha first
  have right := reduced_reduce indexed hb second
  have summable : Summable t.units s.units :=
    ((tidy_append_ok_iff left.shape.distinct right.shape.distinct).mp ⟨q, tidied⟩).symm
  obtain ⟨p, swapped⟩ := (tidy_append_ok_iff (x := t.amount * s.amount) right.shape.distinct
    left.shape.distinct).mpr summable
  have multiplied : r.multiply b a = .ok p :=
    bind_ok_iff.mpr ⟨t, second, bind_ok_iff.mpr ⟨s, first, swapped⟩⟩
  have hs := covers_reduce indexed ha first
  have ht := covers_reduce indexed hb second
  have forward := isProduct_tidy indexed.toNumbered hs ht left right tidied
  have backward := isProduct_tidy indexed.toNumbered ht hs right left swapped
  have units : p.units = q.units := backward.units_eq indexed.toNumbered forward (add_comm _ _)
  have amount : p.amount = q.amount := by rw [backward.amount, forward.amount, Scalar.Lawful.mul_comm]
  rw [multiplied, Quantity.ext amount units]

theorem reduce_one [Scalar.Lawful α] : r.reduce (number Scalar.one) = .ok (number Scalar.one) :=
  reduce_light ⟨tidy_nil, by simp [number], by simp [number]⟩ (by simp [number])

/-- Multiplying by one only reduces. -/
theorem multiply_one [Scalar.Lawful α] (indexed : r.Indexed) (ha : r.Covers a.units) :
    r.multiply a (number Scalar.one) = r.reduce a := by
  cases first : r.reduce a with
  | error e => rw [multiply, first]; rfl
  | ok s =>
    refine bind_ok_iff.mpr ⟨s, first, bind_ok_iff.mpr ⟨_, reduce_one, ?_⟩⟩
    show Quantity.tidy ⟨s.amount * Scalar.one, s.units ++ []⟩ = _
    rw [List.append_nil, Scalar.Lawful.mul_one]
    exact tidy_fixed (tidy_reduce indexed ha first)

/-! ### Associativity -/

/-- A product is reduced, so as a factor it keeps its units, and only its amount may take the detour
over grams. -/
theorem multiply_product [Scalar.Lawful α] (indexed : r.Indexed) (ha : r.Covers a.units) (hb : r.Covers b.units)
    (hc : r.Covers c.units) {u : Quantity α} (first : r.reduce a = .ok s) (second : r.reduce b = .ok t)
    (third : r.reduce c = .ok u) (inner : r.multiply a b = .ok p) (outer : r.multiply p c = .ok q) :
    IsProduct r s t p ∧ ∃ x, r.reduce p = .ok ⟨x, p.units⟩ ∧ IsProduct r ⟨x, p.units⟩ u q := by
  have product := multiply_isProduct indexed ha hb first second inner
  obtain ⟨x, again⟩ := reduce_units_of_reduced (r := r) product.reduced
  exact ⟨product, x, again, multiply_isProduct indexed product.covers hc again third outer⟩

theorem dimension_multiply_product [Scalar.Lawful α] (indexed : r.Indexed) (ha : r.Covers a.units)
    (hb : r.Covers b.units) (hc : r.Covers c.units) {u : Quantity α} (first : r.reduce a = .ok s)
    (second : r.reduce b = .ok t) (third : r.reduce c = .ok u) (inner : r.multiply a b = .ok p)
    (outer : r.multiply p c = .ok q) :
    r.Covers q.units ∧ Reduced q.units ∧
      r.dimensionOf q = r.dimensionOf s + r.dimensionOf t + r.dimensionOf u := by
  obtain ⟨product, x, -, whole⟩ := multiply_product indexed ha hb hc first second third inner outer
  refine ⟨whole.covers, whole.reduced, ?_⟩
  rw [whole.dimension, ← product.dimension]
  rfl

/-- A product grouped to the right is one grouped to the left, of the same factors in turn. -/
theorem regroup [Scalar.Lawful α] (indexed : r.Indexed) (ha : r.Covers a.units) (hb : r.Covers b.units)
    (hc : r.Covers c.units) {p' q' : Quantity α} (inner : r.multiply a b = .ok p)
    (inner' : r.multiply b c = .ok p') (outer' : r.multiply a p' = .ok q') :
    ∃ s t u, r.reduce a = .ok s ∧ r.reduce b = .ok t ∧ r.reduce c = .ok u ∧ r.multiply p' a = .ok q' := by
  obtain ⟨s, t, first, second, -⟩ := multiply_ok inner
  obtain ⟨-, u, -, third, -⟩ := multiply_ok inner'
  have inside : r.Covers p'.units := (multiply_isProduct indexed hb hc second third inner').covers
  exact ⟨s, t, u, first, second, third, multiply_comm indexed ha inside outer'⟩

/-- Both ways to multiply three quantities come to the same units. -/
theorem units_multiply_assoc [Scalar.Lawful α] (indexed : r.Indexed) (ha : r.Covers a.units)
    (hb : r.Covers b.units) (hc : r.Covers c.units) {p' q' : Quantity α} (inner : r.multiply a b = .ok p)
    (outer : r.multiply p c = .ok q) (inner' : r.multiply b c = .ok p') (outer' : r.multiply a p' = .ok q') :
    q.units = q'.units := by
  obtain ⟨s, t, u, first, second, third, swapped⟩ := regroup indexed ha hb hc inner inner' outer'
  obtain ⟨covers, reduced, dimension⟩ :=
    dimension_multiply_product indexed ha hb hc first second third inner outer
  obtain ⟨covers', reduced', dimension'⟩ :=
    dimension_multiply_product indexed hb hc ha second third first inner' swapped
  refine eq_of_reduced indexed.toNumbered covers covers' reduced reduced' ?_
  refine dimension.trans (Eq.trans ?_ dimension'.symm)
  abel

/-- Over exact numbers a product takes the amounts of its reduced factors, however they are grouped. -/
theorem exact_amount_multiply {r : Registry Rat} (indexed : r.Indexed) {a b c p q s t u : Quantity Rat}
    (ha : r.Covers a.units) (hb : r.Covers b.units) (hc : r.Covers c.units) (first : r.reduce a = .ok s)
    (second : r.reduce b = .ok t) (third : r.reduce c = .ok u) (inner : r.multiply a b = .ok p)
    (outer : r.multiply p c = .ok q) : q.amount = s.amount * t.amount * u.amount := by
  obtain ⟨product, x, again, whole⟩ := multiply_product indexed ha hb hc first second third inner outer
  have fixed : p = ⟨x, p.units⟩ := Except.ok.inj ((exact_reduce_of_reduced product.reduced).symm.trans again)
  rw [whole.amount, ← fixed, product.amount]

theorem exact_multiply_assoc {r : Registry Rat} (indexed : r.Indexed) {a b c p q p' q' : Quantity Rat}
    (ha : r.Covers a.units) (hb : r.Covers b.units) (hc : r.Covers c.units) (inner : r.multiply a b = .ok p)
    (outer : r.multiply p c = .ok q) (inner' : r.multiply b c = .ok p') (outer' : r.multiply a p' = .ok q') :
    q = q' := by
  have units : q.units = q'.units := units_multiply_assoc indexed ha hb hc inner outer inner' outer'
  obtain ⟨s, t, u, first, second, third, swapped⟩ := regroup indexed ha hb hc inner inner' outer'
  have amount : q.amount = q'.amount := by
    rw [exact_amount_multiply indexed ha hb hc first second third inner outer,
      exact_amount_multiply indexed hb hc ha second third first inner' swapped]
    ring
  exact Quantity.ext amount units

/-! ### The laws -/

/-- Over any registry, multiplication commutes, reduces what is multiplied by one, and is associative in
its units; over exact numbers it is associative in its amounts as well. -/
theorem multiply_laws {r : Registry Float} (reachable : r.Reachable) {a b c : Quantity Float}
    (ha : r.Covers a.units) (hb : r.Covers b.units) (hc : r.Covers c.units) {e : Registry Rat}
    (reachable' : e.Reachable) {x y z : Quantity Rat} (hx : e.Covers x.units) (hy : e.Covers y.units)
    (hz : e.Covers z.units) :
    (∀ q, r.multiply a b = .ok q ↔ r.multiply b a = .ok q) ∧
      r.multiply a (number 1) = r.reduce a ∧
      (∀ q q', (r.multiply a b >>= fun p => r.multiply p c) = .ok q →
        (r.multiply b c >>= fun p => r.multiply a p) = .ok q' → q.units = q'.units) ∧
      (∀ q q', (e.multiply x y >>= fun p => e.multiply p z) = .ok q →
        (e.multiply y z >>= fun p => e.multiply x p) = .ok q' → q = q') := by
  have indexed := reachable.indexed
  refine ⟨fun q => ⟨multiply_comm indexed ha hb, multiply_comm indexed hb ha⟩, multiply_one indexed ha, ?_, ?_⟩
  · intro q q' left right
    obtain ⟨p, inner, outer⟩ := bind_ok left
    obtain ⟨p', inner', outer'⟩ := bind_ok right
    exact units_multiply_assoc indexed ha hb hc inner outer inner' outer'
  · intro q q' left right
    obtain ⟨p, inner, outer⟩ := bind_ok left
    obtain ⟨p', inner', outer'⟩ := bind_ok right
    exact exact_multiply_assoc reachable'.indexed hx hy hz inner outer inner' outer'

/-- `x km·mg` -/
def kilometreMilligrams (x : α) : Quantity α :=
  ⟨x, [⟨Builtin.metre, Prefix.named? "k", 1⟩, ⟨Builtin.gram, Prefix.named? "m", 1⟩]⟩

/-- `x m²/g` -/
def areaPerGram (x : α) : Quantity α :=
  ⟨x, [⟨Builtin.metre, none, .squared⟩, ⟨Builtin.gram, none, .reciprocal⟩]⟩

/-- `x /kK` -/
def perKilokelvin (x : α) : Quantity α :=
  ⟨x, [⟨Builtin.kelvin, Prefix.named? "k", .reciprocal⟩]⟩

/-- Three samples whose masses cancel. -/
theorem multiply_laws_samples :
    (∃ q, standard.multiply (kilometreMilligrams 3) (areaPerGram 5) = .ok q ∧
        standard.multiply (areaPerGram 5) (kilometreMilligrams 3) = .ok q) ∧
      standard.multiply (kilometreMilligrams 3) (number 1) = standard.reduce (kilometreMilligrams 3) ∧
      (∃ q q', (standard.multiply (kilometreMilligrams 3) (areaPerGram 5) >>= fun p =>
          standard.multiply p (perKilokelvin 7)) = .ok q ∧
        (standard.multiply (areaPerGram 5) (perKilokelvin 7) >>= fun p =>
          standard.multiply (kilometreMilligrams 3) p) = .ok q' ∧ q.units = q'.units) ∧
      ∃ q, (exact.multiply (kilometreMilligrams 3) (areaPerGram 5) >>= fun p =>
          exact.multiply p (perKilokelvin 7)) = .ok q ∧
        (exact.multiply (areaPerGram 5) (perKilokelvin 7) >>= fun p =>
          exact.multiply (kilometreMilligrams 3) p) = .ok q := by
  have lengths {β : Type} [Scalar β] (x : β) : (builtin β).Covers (kilometreMilligrams x).units :=
    covers_cons.mpr ⟨Builtin.metre_mem, covers_singleton.mpr Builtin.gram_mem⟩
  have areas {β : Type} [Scalar β] (x : β) : (builtin β).Covers (areaPerGram x).units :=
    covers_cons.mpr ⟨Builtin.metre_mem, covers_singleton.mpr Builtin.gram_mem⟩
  have inverses {β : Type} [Scalar β] (x : β) : (builtin β).Covers (perKilokelvin x).units :=
    covers_singleton.mpr Builtin.kelvin_mem
  obtain ⟨commutes, unit, units, equal⟩ := multiply_laws builtin_reachable (lengths (3 : Float)) (areas 5)
    (inverses 7) builtin_reachable (lengths (3 : Rat)) (areas 5) (inverses 7)
  obtain ⟨q, multiplied⟩ := isOk_iff.mp
    (show (standard.multiply (kilometreMilligrams 3) (areaPerGram 5)).isOk = true by decide +kernel)
  obtain ⟨s, left⟩ := isOk_iff.mp
    (show (standard.multiply (kilometreMilligrams 3) (areaPerGram 5) >>= fun p =>
      standard.multiply p (perKilokelvin 7)).isOk = true by decide +kernel)
  obtain ⟨s', right⟩ := isOk_iff.mp
    (show (standard.multiply (areaPerGram 5) (perKilokelvin 7) >>= fun p =>
      standard.multiply (kilometreMilligrams 3) p).isOk = true by decide +kernel)
  obtain ⟨t, left'⟩ := isOk_iff.mp
    (show (exact.multiply (kilometreMilligrams 3) (areaPerGram 5) >>= fun p =>
      exact.multiply p (perKilokelvin 7)).isOk = true by decide +kernel)
  obtain ⟨t', right'⟩ := isOk_iff.mp
    (show (exact.multiply (areaPerGram 5) (perKilokelvin 7) >>= fun p =>
      exact.multiply (kilometreMilligrams 3) p).isOk = true by decide +kernel)
  exact ⟨⟨q, multiplied, (commutes q).mp multiplied⟩, unit, ⟨s, s', left, right, units s s' left right⟩,
    ⟨t, left', equal t t' left' right' ▸ right'⟩⟩

end Registry

end Metrology
