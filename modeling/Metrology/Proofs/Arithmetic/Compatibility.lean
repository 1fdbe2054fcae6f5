import Metrology.Proofs.Arithmetic.Dimension
import Metrology.Proofs.Registry.Resolution

/-!
Quantities of different registries. Units are matched by symbol, but a list of factors stands in the order of
the registry that its own units come from, and lists are compared place by place. Main statement:
`compatible_iff_sameOrder`. Irreducible units without prefixes are compatible exactly when every symbol has the
same total exponent and both registries have the symbols of one sign in the same order.
-/

namespace Metrology.Registry
open Outcome Quantity

variable {α : Type} [Scalar α] {r r₁ r₂ : Registry α} {a b s t q : Quantity α} {us vs : List (Factor α)}
  {u : Factor α} {d : Dimension} {x y : String}

/-! ### The order of symbols -/

/-- `x` is registered before `y`. -/
def Precedes (r : Registry α) (x y : String) : Prop :=
  ∃ u ∈ r.units, ∃ v ∈ r.units, u.symbol = x ∧ v.symbol = y ∧ u.order < v.order

/-- Canonical order of symbols that have the exponents `d`. -/
def Ranks (r : Registry α) (d : Dimension) (x y : String) : Prop :=
  (0 ≤ d x ∧ d y < 0) ∨ ((d x < 0 ↔ d y < 0) ∧ r.Precedes x y)

/-- Both registries have symbols of one sign in the same order. -/
def SameOrder (r₁ r₂ : Registry α) (d : Dimension) : Prop :=
  ∀ x y, d x ≠ 0 → d y ≠ 0 → (d x < 0 ↔ d y < 0) → (r₁.Precedes x y ↔ r₂.Precedes x y)

omit [Scalar α] in
theorem Precedes.asymm (numbered : r.Numbered) (forward : r.Precedes x y) : ¬r.Precedes y x := by
  rintro ⟨v', hv', u', hu', same, same', backward⟩
  obtain ⟨u, hu, v, hv, rfl, rfl, order⟩ := forward
  rw [numbered.eq_of_symbol hu' hu same', numbered.eq_of_symbol hv' hv same] at backward
  exact absurd order backward.asymm

omit [Scalar α] in
theorem Precedes.irrefl (numbered : r.Numbered) : ¬r.Precedes x x :=
  fun forward => forward.asymm numbered forward

omit [Scalar α] in
theorem ranks_iff (sign : d x < 0 ↔ d y < 0) : r.Ranks d x y ↔ r.Precedes x y := by
  constructor
  · rintro (⟨positive, negative⟩ | ⟨-, precedes⟩)
    · exact absurd (sign.mpr negative) positive.not_gt
    · exact precedes
  · exact fun precedes => .inr ⟨sign, precedes⟩

omit [Scalar α] in
theorem Ranks.asymm (numbered : r.Numbered) (forward : r.Ranks d x y) : ¬r.Ranks d y x := by
  rcases forward with ⟨positive, negative⟩ | ⟨sign, precedes⟩
  · rintro (⟨positive', -⟩ | ⟨sign, -⟩)
    · exact positive'.not_gt negative
    · exact positive.not_gt (sign.mp negative)
  · rw [ranks_iff sign.symm]
    exact precedes.asymm numbered

omit [Scalar α] in
theorem symbols_ranked (covers : r.Covers us) (tidy : Tidy us) :
    (us.map (·.base.symbol)).Pairwise (r.Ranks (totals us)) := by
  rw [List.pairwise_map]
  refine tidy.ordered.imp_of_mem ?_
  intro u v hu hv before
  rw [Ranks, totals_of_mem tidy.distinct hu, totals_of_mem tidy.distinct hv]
  exact before.imp id fun ⟨sign, order⟩ => ⟨sign, u.base, covers u hu, v.base, covers v hv, rfl, rfl, order⟩

omit [Scalar α] in
/-- Lists of the same symbols, each in the canonical order of its registry, are equal exactly when the
registries agree on that order. -/
theorem ranked_eq_iff {xs ys : List String} (numbered₁ : r₁.Numbered) (numbered₂ : r₂.Numbered)
    (hxs : xs.Pairwise (r₁.Ranks d)) (hys : ys.Pairwise (r₂.Ranks d)) (inside : ∀ x, x ∈ xs ↔ d x ≠ 0)
    (inside' : ∀ y, y ∈ ys ↔ d y ≠ 0) : xs = ys ↔ SameOrder r₁ r₂ d := by
  constructor
  · rintro rfl x y hx hy sign
    by_cases same : x = y
    · subst same
      exact iff_of_false (Precedes.irrefl numbered₁) (Precedes.irrefl numbered₂)
    -- two places of the one list are ranked by both registries, in the same direction
    have symmetric : Std.Symm fun x y =>
        (r₁.Ranks d x y ∧ r₂.Ranks d x y) ∨ (r₁.Ranks d y x ∧ r₂.Ranks d y x) := ⟨fun _ _ => Or.symm⟩
    have ranked : xs.Pairwise fun x y =>
        (r₁.Ranks d x y ∧ r₂.Ranks d x y) ∨ (r₁.Ranks d y x ∧ r₂.Ranks d y x) := (hxs.and hys).imp .inl
    rw [← ranks_iff (r := r₁) sign, ← ranks_iff (r := r₂) sign]
    rcases ranked.forall ((inside x).mpr hx) ((inside y).mpr hy) same with forward | backward
    · exact iff_of_true forward.1 forward.2
    · exact iff_of_false (backward.1.asymm numbered₁) (backward.2.asymm numbered₂)
  · intro agree
    have ranked : ys.Pairwise (r₁.Ranks d) := by
      refine hys.imp_of_mem fun hx hy => Or.imp id ?_
      rintro ⟨sign, precedes⟩
      exact ⟨sign, (agree _ _ ((inside' _).mp hx) ((inside' _).mp hy) sign).mpr precedes⟩
    have irreflexive : Std.Irrefl (r₁.Ranks d) := ⟨fun _ loop => loop.asymm numbered₁ loop⟩
    have antisymmetric : Std.Antisymm (r₁.Ranks d) :=
      ⟨fun _ _ forward backward => absurd backward (forward.asymm numbered₁)⟩
    exact hxs.eq_of_mem_iff ranked fun x => (inside x).trans (inside' x).symm

/-! ### Comparing place by place -/

/-- What factors are compared by. -/
def entry (u : Factor α) : String × Option String × Int :=
  (u.base.symbol, u.prefixSymbol?, u.exponent.val)

omit [Scalar α] in
theorem beq_iff_entries : (us == vs) = true ↔ us.map entry = vs.map entry := by
  induction us generalizing vs with
  | nil => cases vs <;> simp
  | cons u us ih =>
    cases vs with
    | nil => simp
    | cons v vs =>
      rw [List.cons_beq_cons, Bool.and_eq_true, Factor.beq_iff, ih, List.map_cons, List.map_cons,
        List.cons.injEq, entry, entry, Prod.mk.injEq, Prod.mk.injEq, Exponent.val_inj]

omit [Scalar α] in
theorem totals_eq_of_entries (same : us.map entry = vs.map entry) : totals us = totals vs := by
  have sums : ∀ us : List (Factor α), totals us =
      ((us.map entry).map fun e => e.2.2 • (Pi.single e.1 1 : Dimension)).sum := by
    intro us
    rw [List.map_map]
    rfl
  rw [sums, sums, same]

theorem entries_of_symbols (reduced : Reduced us) :
    us.map entry =
      (us.map (·.base.symbol)).map fun x => (x, if x = "g" then some "k" else none, totals us x) := by
  rw [List.map_map]
  refine List.map_congr_left fun u member => ?_
  have pre : u.prefixSymbol? = if u.base.symbol = "g" then some "k" else none := by
    rw [Factor.prefixSymbol?, reduced.prefixes u member, canonicalPrefix?]
    split <;> rfl
  rw [entry, Function.comp_apply, pre, totals_of_mem reduced.shape.distinct member]

theorem beq_of_reduced (left : Reduced us) (right : Reduced vs) :
    (us == vs) = true ↔ totals us = totals vs ∧ us.map (·.base.symbol) = vs.map (·.base.symbol) := by
  rw [beq_iff_entries]
  constructor
  · intro same
    refine ⟨totals_eq_of_entries same, ?_⟩
    have firsts := congrArg (List.map Prod.fst) same
    rwa [List.map_map, List.map_map] at firsts
  · rintro ⟨exponents, symbols⟩
    rw [entries_of_symbols left, entries_of_symbols right, exponents, symbols]

/-! ### Reduction of irreducible units -/

theorem canonical_tidy (canonical : ∀ u ∈ q.units, u.isCanonical = true) (h : q.tidy = .ok t) :
    ∀ u ∈ t.units, u.isCanonical = true := by
  intro u member
  obtain ⟨v, origin, base, pre⟩ := tidy_origin h member
  obtain ⟨irreducible, bare⟩ := Factor.isCanonical_iff.mp (canonical v origin)
  rw [bare] at pre
  exact Factor.isCanonical_iff.mpr ⟨base ▸ irreducible, Option.eq_none_iff_forall_not_mem.mpr fun p chosen =>
    absurd (pre p chosen) (Option.not_mem_none p)⟩

/-- No definition is looked up. -/
theorem reduce_of_canonical (canonical : ∀ u ∈ q.units, u.isCanonical = true) :
    r.reduce q = restoreKilogram <$> q.tidy := by
  cases tidied : q.tidy with
  | error e => rw [reduce, tidied]; rfl
  | ok t =>
    rw [reduce_of_no_pass tidied (canonical_tidy canonical tidied)]
    rfl

theorem totals_reduce (indexed : r.Indexed) (covers : r.Covers q.units)
    (canonical : ∀ u ∈ q.units, u.isCanonical = true) (h : r.reduce q = .ok t) :
    totals t.units = totals q.units := by
  rw [reduce_of_canonical canonical] at h
  obtain ⟨tidied, first, rfl⟩ := map_ok h
  rw [totals, restoreKilogram_units (tidy_shape indexed.toNumbered covers first).distinct, weigh_withKilogram]
  exact weigh_tidy indexed.toNumbered covers first

/-- Compatibility is a matter of the total exponents and of the order in which the two registries have the
symbols of one sign. The registry `r` of the check has no part in it. -/
theorem compatible_iff_sameOrder (origin₁ : r₁.Reachable) (origin₂ : r₂.Reachable) (ha : r₁.Covers a.units)
    (hb : r₂.Covers b.units) (canonical₁ : ∀ u ∈ a.units, u.isCanonical = true)
    (canonical₂ : ∀ u ∈ b.units, u.isCanonical = true) (first : r.reduce a = .ok s)
    (second : r.reduce b = .ok t) :
    (∃ answer, r.compatible a b = .ok answer ∧
      (answer = true ↔ totals a.units = totals b.units ∧ SameOrder r₁ r₂ (totals a.units))) ∧
      ∀ r' : Registry α, r'.compatible a b = r.compatible a b := by
  have left : ∀ r' : Registry α, r'.reduce a = .ok s := fun r' => by
    rw [reduce_of_canonical canonical₁, ← reduce_of_canonical (r := r) canonical₁, first]
  have right : ∀ r' : Registry α, r'.reduce b = .ok t := fun r' => by
    rw [reduce_of_canonical canonical₂, ← reduce_of_canonical (r := r) canonical₂, second]
  have indexed₁ := origin₁.indexed
  have indexed₂ := origin₂.indexed
  have covers₁ := covers_reduce indexed₁ ha (left r₁)
  have covers₂ := covers_reduce indexed₂ hb (right r₂)
  have reduced₁ := reduced_reduce indexed₁ ha (left r₁)
  have reduced₂ := reduced_reduce indexed₂ hb (right r₂)
  refine ⟨⟨_, compatible_eq first second, ?_⟩, fun r' => ?_⟩
  · rw [sameUnits, beq_of_reduced reduced₁ reduced₂,
      ← totals_reduce indexed₁ ha canonical₁ (left r₁), ← totals_reduce indexed₂ hb canonical₂ (right r₂)]
    refine and_congr_right fun same => ?_
    exact ranked_eq_iff indexed₁.toNumbered indexed₂.toNumbered (symbols_ranked covers₁ reduced₁.shape)
      (same ▸ symbols_ranked covers₂ reduced₂.shape) (fun _ => mem_symbols reduced₁.shape)
      fun _ => same ▸ mem_symbols reduced₂.shape
  · rw [compatible_eq (left r') (right r'), compatible_eq first second]

/-! ### Metres and kelvins in either order -/

/-- The kelvin comes first, unlike in the table of built-in units. -/
def kelvinFirst : List (Command α) :=
  [.register (accepting "K" []), .register (accepting "m" [])]

theorem units_kelvinFirst : ((empty : Registry α).run kelvinFirst).units =
    [{ accepting "K" [] with order := 1 }, { accepting "m" [] with order := 2 }] := by
  simp [run, kelvinFirst, execute, Command.apply, register, insert, accepting, empty, reindex, nextOrder, size]

/-- Metres times the kelvins to the power `e`, of the built-in units. -/
def metreKelvins (e : Exponent) : Quantity Float :=
  ⟨1, [⟨Builtin.metre, none, 1⟩, ⟨Builtin.kelvin, none, e⟩]⟩

/-- The same of the units registered in the other order. -/
def otherMetreKelvins (e : Exponent) : Quantity Float :=
  ⟨1, [⟨{ accepting "m" [] with order := 2 }, none, 1⟩, ⟨{ accepting "K" [] with order := 1 }, none, e⟩]⟩

theorem metreKelvins_covers (e : Exponent) : standard.Covers (metreKelvins e).units :=
  covers_cons.mpr ⟨Builtin.metre_mem, covers_singleton.mpr Builtin.kelvin_mem⟩

theorem otherMetreKelvins_covers (e : Exponent) : (empty.run kelvinFirst).Covers (otherMetreKelvins e).units := by
  refine covers_cons.mpr ⟨?_, covers_singleton.mpr ?_⟩ <;> rw [units_kelvinFirst]
  · exact .tail _ (.head _)
  · exact .head _

theorem metreKelvins_canonical (e : Exponent) : ∀ u ∈ (metreKelvins e).units, u.isCanonical = true := by
  simp [metreKelvins, Factor.isCanonical_iff, Builtin.metre, Builtin.kelvin, Builtin.irreducible, Definition.metric?]

theorem otherMetreKelvins_canonical (e : Exponent) : ∀ u ∈ (otherMetreKelvins e).units, u.isCanonical = true := by
  simp [otherMetreKelvins, Factor.isCanonical_iff, accepting, Definition.metric?]

theorem precedes_kelvinFirst : (empty.run kelvinFirst : Registry Float).Precedes "K" "m" := by
  refine ⟨{ accepting "K" [] with order := 1 }, ?_, { accepting "m" [] with order := 2 }, ?_, rfl, rfl, by decide⟩ <;>
    rw [units_kelvinFirst]
  · exact .head _
  · exact .tail _ (.head _)

theorem precedes_standard : standard.Precedes "m" "K" :=
  ⟨Builtin.metre, Builtin.metre_mem, Builtin.kelvin, Builtin.kelvin_mem, rfl, rfl, by decide⟩

theorem totals_metreKelvins (e : Exponent) : totals (otherMetreKelvins e).units = totals (metreKelvins e).units :=
  rfl

theorem totals_metresPerKelvin :
    totals (metreKelvins .reciprocal).units x = if x = "m" then 1 else if x = "K" then -1 else 0 := by
  have metre : (Builtin.metre : BaseUnit Float).symbol = "m" := rfl
  have kelvin : (Builtin.kelvin : BaseUnit Float).symbol = "K" := rfl
  have one : Exponent.val 1 = 1 := rfl
  simp only [totals, metreKelvins, weigh_cons, weigh_nil, Pi.add_apply, Pi.smul_apply, Pi.single_apply, Pi.zero_apply,
    metre, kelvin, one, Exponent.val_reciprocal, smul_eq_mul]
  grind

/-- The two symbols have different signs. -/
theorem sameOrder_metresPerKelvin :
    SameOrder (empty.run kelvinFirst) standard (totals (metreKelvins .reciprocal).units) := by
  intro x y hx hy sign
  simp only [totals_metresPerKelvin] at hx hy sign
  have same : x = y := by grind
  subst same
  exact iff_of_false (Precedes.irrefl (Reachable.empty.run kelvinFirst).indexed.toNumbered)
    (Precedes.irrefl standard_indexed.toNumbered)

theorem compatible_iff_sameOrder_metreKelvins :
    (empty.run kelvinFirst : Registry Float).Reachable ∧ standard.Reachable ∧
      standard.compatible (otherMetreKelvins .reciprocal) (metreKelvins .reciprocal) = .ok true ∧
      standard.compatible (otherMetreKelvins 1) (metreKelvins 1) = .ok false := by
  have origin : (empty.run kelvinFirst : Registry Float).Reachable := Reachable.empty.run kelvinFirst
  have check : ∀ e : Exponent, (standard.reduce (otherMetreKelvins e)).isOk = true →
      (standard.reduce (metreKelvins e)).isOk = true → ∃ answer,
        standard.compatible (otherMetreKelvins e) (metreKelvins e) = .ok answer ∧
          (answer = true ↔ SameOrder (empty.run kelvinFirst) standard (totals (metreKelvins e).units)) := by
    intro e first second
    obtain ⟨s, first⟩ := isOk_iff.mp first
    obtain ⟨t, second⟩ := isOk_iff.mp second
    obtain ⟨⟨answer, answered, same⟩, -⟩ := compatible_iff_sameOrder origin builtin_reachable
      (otherMetreKelvins_covers e) (metreKelvins_covers e) (otherMetreKelvins_canonical e) (metreKelvins_canonical e)
      first second
    exact ⟨answer, answered, same.trans (and_iff_right (totals_metreKelvins e))⟩
  refine ⟨origin, builtin_reachable, ?_, ?_⟩
  · obtain ⟨answer, answered, same⟩ := check .reciprocal (by decide +kernel) (by decide +kernel)
    rw [answered, same.mpr sameOrder_metresPerKelvin]
  · obtain ⟨answer, answered, same⟩ := check 1 (by decide +kernel) (by decide +kernel)
    rw [answered, Except.ok.injEq, ← Bool.not_eq_true, same]
    intro agree
    have forward := (agree "K" "m" (by decide) (by decide) (by decide)).mp precedes_kelvinFirst
    exact forward.asymm standard_indexed.toNumbered precedes_standard

/-- Metre kelvins of equal total exponents that are not compatible. -/
theorem compatible_metreKelvins :
    (empty.run kelvinFirst : Registry Float).Reachable ∧ standard.Reachable ∧
      (empty.run kelvinFirst).Covers (otherMetreKelvins 1).units ∧ standard.Covers (metreKelvins 1).units ∧
      (∀ u ∈ (otherMetreKelvins 1).units ++ (metreKelvins 1).units, u.isCanonical = true) ∧
      (∃ s, standard.reduce (otherMetreKelvins 1) = .ok s) ∧ (∃ t, standard.reduce (metreKelvins 1) = .ok t) ∧
      totals (otherMetreKelvins 1).units = totals (metreKelvins 1).units ∧
      standard.compatible (otherMetreKelvins 1) (metreKelvins 1) = .ok false := by
  refine ⟨Reachable.empty.run kelvinFirst, builtin_reachable, otherMetreKelvins_covers 1, metreKelvins_covers 1,
    List.forall_mem_append.mpr ⟨otherMetreKelvins_canonical 1, metreKelvins_canonical 1⟩,
    isOk_iff.mp (by decide +kernel), isOk_iff.mp (by decide +kernel), rfl, by decide +kernel⟩

end Metrology.Registry
