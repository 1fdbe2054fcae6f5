import Metrology.Proofs.Registry.Dimension

/-!
Total exponents, and canonical order read off them. `ranked` lists the units of a registry whose total is
not zero, the positive ones first. The bases of a tidy list are these (`bases_eq_ranked`), so that such a
list is determined by its totals and its prefixes (`eq_of_tidy`). A list can be tidied exactly when the totals
of all its initial parts are in range (`tidy_ok_iff`).
-/

namespace Metrology.Registry
open Quantity

variable {α : Type} {r : Registry α} {us vs : List (Factor α)} {u : Factor α} {d : Dimension} {x : String}

/-! ### Total exponents -/

/-- The total exponent of every base symbol. -/
def totals (us : List (Factor α)) : Dimension :=
  weigh (fun b => Pi.single b.symbol 1) us

theorem totals_cons :
    totals (u :: us) x = (if u.base.symbol = x then u.exponent.val else 0) + totals us x := by
  rw [totals, weigh_cons, Pi.add_apply, Pi.smul_apply, Pi.single_apply, smul_ite, smul_eq_mul, mul_one, smul_zero]
  simp only [eq_comm, totals]

theorem totals_concat :
    totals (us ++ [u]) x = totals us x + if u.base.symbol = x then u.exponent.val else 0 := by
  rw [totals, weigh_perm (List.perm_append_singleton u us), add_comm]
  exact totals_cons

theorem totals_of_absent (absent : x ∉ us.map (·.base.symbol)) : totals us x = 0 := by
  induction us with
  | nil => rfl
  | cons v vs ih =>
    rw [List.map_cons, List.mem_cons, not_or] at absent
    rw [totals_cons, if_neg (Ne.symm absent.1), ih absent.2, add_zero]

/-- Where the bases are distinct, the total of each is its exponent. -/
theorem totals_of_mem (distinct : (us.map (·.base.symbol)).Nodup) (member : u ∈ us) :
    totals us u.base.symbol = u.exponent.val := by
  induction us with
  | nil => cases member
  | cons v vs ih =>
    rw [List.map_cons, List.nodup_cons] at distinct
    rw [totals_cons]
    rcases List.mem_cons.mp member with rfl | member
    · rw [if_pos rfl, totals_of_absent distinct.1, add_zero]
    · have other : v.base.symbol ≠ u.base.symbol := fun same =>
        distinct.1 (same ▸ List.mem_map_of_mem (f := (·.base.symbol)) member)
      rw [if_neg other, zero_add, ih distinct.2 member]

theorem mem_symbols (tidy : Tidy us) : x ∈ us.map (·.base.symbol) ↔ totals us x ≠ 0 := by
  constructor
  · intro listed
    obtain ⟨u, member, rfl⟩ := List.mem_map.mp listed
    rw [totals_of_mem tidy.distinct member]
    exact tidy.nonzero u member
  · intro nonzero
    by_contra absent
    exact nonzero (totals_of_absent absent)

/-- Of irreducible units the totals are the dimension. -/
theorem totals_eq_dimension [Scalar α] (covers : r.Covers us)
    (irreducible : ∀ u ∈ us, u.base.definition.metric? = none) : totals us = weigh r.dimension us :=
  weigh_congr fun u member => (dimension_irreducible (covers u member) (irreducible u member)).symm

/-! ### Units in canonical order -/

/-- Canonical order of units that have the exponents `d`. -/
def RankedBy (d : Dimension) (b c : BaseUnit α) : Prop :=
  (0 ≤ d b.symbol ∧ d c.symbol < 0) ∨ ((d b.symbol < 0 ↔ d c.symbol < 0) ∧ b.order < c.order)

/-- Two lists of units in canonical order are equal when they have the same members. -/
theorem eq_of_ranked {bs cs : List (BaseUnit α)} (hbs : bs.Pairwise (RankedBy d))
    (hcs : cs.Pairwise (RankedBy d)) (same : ∀ b, b ∈ bs ↔ b ∈ cs) : bs = cs := by
  have irreflexive : Std.Irrefl (@RankedBy α d) := by
    constructor
    intro b
    unfold RankedBy
    omega
  have antisymmetric : Std.Antisymm (@RankedBy α d) := by
    constructor
    intro b c forward backward
    unfold RankedBy at forward backward
    omega
  exact hbs.eq_of_mem_iff hcs same

/-- The units in which `d` is not zero: first where it is positive, then where it is negative, both in
the order of registration. -/
def ranked (r : Registry α) (d : Dimension) : List (BaseUnit α) :=
  r.units.filter (fun b => decide (0 < d b.symbol)) ++ r.units.filter (fun b => decide (d b.symbol < 0))

theorem mem_ranked {b : BaseUnit α} : b ∈ r.ranked d ↔ b ∈ r.units ∧ d b.symbol ≠ 0 := by
  rw [ranked, List.mem_append, List.mem_filter, List.mem_filter, ← and_or_left, decide_eq_true_eq,
    decide_eq_true_eq, or_comm, ne_iff_lt_or_gt]

theorem ranked_pairwise (numbered : r.Numbered) : (r.ranked d).Pairwise (RankedBy d) := by
  have sign : ∀ (negative : Prop) {p : BaseUnit α → Bool},
      (∀ b, p b = true → (d b.symbol < 0 ↔ negative)) → (r.units.filter p).Pairwise (RankedBy d) := by
    intro negative p same
    refine (numbered.pairwise_order.filter p).imp_of_mem ?_
    intro b c hb hc order
    have left := same b (List.mem_filter.mp hb).2
    have right := same c (List.mem_filter.mp hc).2
    exact .inr ⟨left.trans right.symm, order⟩
  rw [ranked, List.pairwise_append]
  refine ⟨sign False ?_, sign True ?_, ?_⟩
  · intro b positive
    exact iff_false_intro (of_decide_eq_true positive).le.not_gt
  · intro b negative
    exact iff_true_intro (of_decide_eq_true negative)
  · intro b hb c hc
    rw [List.mem_filter, decide_eq_true_eq] at hb hc
    exact .inl ⟨hb.2.le, hc.2⟩

/-! ### Tidy lists -/

theorem bases_eq_ranked (numbered : r.Numbered) (covers : r.Covers us) (tidy : Tidy us) :
    us.map (·.base) = r.ranked (totals us) := by
  have ordered : (us.map (·.base)).Pairwise (RankedBy (totals us)) := by
    rw [List.pairwise_map]
    refine tidy.ordered.imp_of_mem ?_
    intro u v hu hv before
    rw [RankedBy, totals_of_mem tidy.distinct hu, totals_of_mem tidy.distinct hv]
    exact before
  refine eq_of_ranked ordered (ranked_pairwise numbered) fun b => ?_
  rw [mem_ranked, List.mem_map]
  constructor
  · rintro ⟨u, member, rfl⟩
    exact ⟨covers u member, (mem_symbols tidy).mp (List.mem_map_of_mem member)⟩
  · rintro ⟨inside, nonzero⟩
    obtain ⟨u, member, same⟩ := List.mem_map.mp ((mem_symbols tidy).mpr nonzero)
    exact ⟨u, member, numbered.eq_of_symbol (covers u member) inside same⟩

/-- The parts of the factors of a tidy list whose prefixes are known. -/
theorem parts_of_tidy (numbered : r.Numbered) (covers : r.Covers us) (tidy : Tidy us)
    {f : BaseUnit α → Option (Prefix α)} (prefixes : ∀ u ∈ us, u.pre = f u.base) :
    us.map Factor.parts = (r.ranked (totals us)).map fun b => (b, f b, totals us b.symbol) := by
  rw [← bases_eq_ranked numbered covers tidy, List.map_map]
  refine List.map_congr_left fun u member => ?_
  rw [Factor.parts, prefixes u member, Function.comp_apply, totals_of_mem tidy.distinct member]

/-- Tidy lists with the same totals and the same prefixes are equal. -/
theorem eq_of_tidy (numbered : r.Numbered) (hus : r.Covers us) (hvs : r.Covers vs) (left : Tidy us)
    (right : Tidy vs) {pre : BaseUnit α → Option (Prefix α)} (prefixes : ∀ u ∈ us, u.pre = pre u.base)
    (prefixes' : ∀ v ∈ vs, v.pre = pre v.base) (same : totals us = totals vs) : us = vs := by
  refine List.map_injective_iff.mpr Factor.parts_injective ?_
  rw [parts_of_tidy numbered hus left prefixes, parts_of_tidy numbered hvs right prefixes', same]

end Metrology.Registry

namespace Metrology.Quantity
open Outcome Registry

variable {α : Type} [Scalar α] {r : Registry α} {q : Quantity α} {us ws : List (Factor α)} {y : α}

/-! ### When a list can be tidied -/

omit [Scalar α] in
/-- For every base symbol each partial sum of exponents, in the order of the list, is in their range. -/
def InRange (us : List (Factor α)) : Prop :=
  ∀ vs, vs <+: us → ∀ x, -2147483648 ≤ totals vs x ∧ totals vs x ≤ 2147483647

/-- What has been merged has the totals as its exponents, or no factor where a total is zero. -/
theorem merge_bounds (numbered : r.Numbered) (covers : r.Covers us) (h : merge us = .ok (ws, y)) (x : String) :
    -2147483648 ≤ totals us x ∧ totals us x ≤ 2147483647 := by
  rw [totals, ← weigh_merge numbered covers h]
  show -2147483648 ≤ totals ws x ∧ totals ws x ≤ 2147483647
  by_cases listed : x ∈ ws.map (·.base.symbol)
  · obtain ⟨w, member, rfl⟩ := List.mem_map.mp listed
    rw [totals_of_mem (merge_distinct h) member]
    exact ⟨w.exponent.min_le, w.exponent.le_max⟩
  · rw [totals_of_absent listed]
    exact ⟨by decide, by decide⟩

/-- Merging succeeds exactly when the partial sums stay in range. -/
theorem merge_ok_iff (numbered : r.Numbered) (covers : r.Covers us) :
    (∃ ws y, merge us = .ok (ws, y)) ↔ InRange us := by
  induction us using List.reverseRecOn with
  | nil =>
    refine iff_of_true ⟨[], _, rfl⟩ fun vs start x => ?_
    rw [List.prefix_nil.mp start, totals_of_absent List.not_mem_nil]
    exact ⟨by decide, by decide⟩
  | append_singleton us u ih =>
    have inside := (covers_append.mp covers).1
    constructor
    · rintro ⟨ws, y, h⟩ vs start x
      obtain ⟨before, z, merged, -⟩ := merge_concat_ok.mp h
      rcases List.prefix_concat_iff.mp start with rfl | earlier
      · exact merge_bounds numbered covers h x
      · exact (ih inside).mp ⟨before, z, merged⟩ vs earlier x
    · intro fits
      obtain ⟨before, z, merged⟩ := (ih inside).mpr fun vs start =>
        fits vs (start.trans (List.prefix_append us [u]))
      -- the sum that is checked is the total of the list up to here
      have sums : ∀ v ∈ before, v.sameBase u = true → ∃ e, v.exponent.add? u.exponent = some e := by
        intro v member same
        have bounds := fits (us ++ [u]) (List.prefix_refl _) v.base.symbol
        have total : totals us v.base.symbol = v.exponent.val := by
          rw [totals, ← weigh_merge numbered inside merged]
          exact totals_of_mem (merge_distinct merged) member
        rw [totals_concat, total, if_pos (Factor.sameBase_iff.mp same).symm] at bounds
        exact ⟨⟨_, bounds.1, bounds.2⟩, Exponent.add?_eq_some_iff.mpr rfl⟩
      obtain ⟨ws, y, absorbed⟩ := absorb_of_fits (x := z) sums
      exact ⟨ws, y, merge_concat_ok.mpr ⟨before, z, merged, absorbed⟩⟩

theorem tidy_ok_iff (numbered : r.Numbered) (covers : r.Covers q.units) :
    (∃ t, q.tidy = .ok t) ↔ InRange q.units :=
  tidy_iff_merge.trans (merge_ok_iff numbered covers)

end Metrology.Quantity
