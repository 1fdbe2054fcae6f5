import Mathlib.Algebra.BigOperators.Group.List.Basic
import Mathlib.Algebra.Module.NatInt
import Mathlib.Data.List.Perm.Basic
import Mathlib.Tactic.Abel
import Metrology.Proofs.Quantity.Tidy

/-!
Weighted sums of exponents. `weigh f us` adds up `f` over the bases of `us`, each as often as its
exponent says. Tidying keeps every such sum, an inverse negates it and a power multiplies it.
-/

namespace Metrology.Quantity
open Outcome

variable {α M : Type} [AddCommGroup M] {f g : BaseUnit α → M} {us vs ws : List (Factor α)} {u : Factor α}

/-- The sum of `f` over the bases, each times its exponent. -/
def weigh (f : BaseUnit α → M) (us : List (Factor α)) : M :=
  (us.map fun u => u.exponent.val • f u.base).sum

theorem weigh_nil : weigh f [] = 0 := rfl

theorem weigh_cons : weigh f (u :: us) = u.exponent.val • f u.base + weigh f us :=
  List.sum_cons

theorem weigh_append : weigh f (us ++ vs) = weigh f us + weigh f vs := by
  rw [weigh, List.map_append, List.sum_append]
  rfl

theorem weigh_singleton : weigh f [u] = u.exponent.val • f u.base := by
  rw [weigh_cons, weigh_nil, add_zero]

theorem weigh_congr (same : ∀ u ∈ us, f u.base = g u.base) : weigh f us = weigh g us := by
  unfold weigh
  rw [List.map_congr_left fun u member => by rw [same u member]]

theorem weigh_perm (permutation : us.Perm vs) : weigh f us = weigh f vs :=
  (permutation.map _).sum_eq

/-- Factors of exponent zero weigh nothing. -/
theorem weigh_filter : weigh f (us.filter (·.exponent != 0)) = weigh f us := by
  induction us with
  | nil => rfl
  | cons u us ih =>
    rw [List.filter_cons, weigh_cons]
    split
    · rw [weigh_cons, ih]
    · rename_i zero
      rw [Exponent.bne_zero, not_not] at zero
      rw [ih, zero, zero_smul, zero_add]

/-! ### Multiples of exponents -/

variable {r : Registry α}

/-- A list of factors whose exponents are `n` times those of another. -/
def Scaled (n : Int) : List (Factor α) → List (Factor α) → Prop :=
  List.Forall₂ fun u v => v.base = u.base ∧ v.pre = u.pre ∧ v.exponent.val = u.exponent.val * n

theorem scaled_of_invert (h : us.mapM Factor.invert = .ok vs) : Scaled (-1) us vs := by
  refine (mapM_ok h).imp fun u v inverted => ?_
  obtain ⟨base, pre, exponent⟩ := Factor.invert_ok inverted
  exact ⟨base, pre, by rw [exponent]; omega⟩

theorem scaled_of_raise {n : Exponent} (h : us.mapM (·.raise n) = .ok vs) : Scaled n.val us vs :=
  (mapM_ok h).imp fun _ _ => Factor.raise_ok

theorem scaled_one (us : List (Factor α)) : Scaled 1 us us :=
  List.forall₂_same.mpr fun _ _ => ⟨rfl, rfl, (mul_one _).symm⟩

theorem weigh_scaled {n : Int} (scaled : Scaled n us vs) : weigh f vs = n • weigh f us := by
  induction scaled with
  | nil => rw [weigh_nil, smul_zero]
  | cons head _ ih =>
    obtain ⟨base, -, exponent⟩ := head
    rw [weigh_cons, weigh_cons, ih, base, exponent, mul_comm, mul_smul, smul_add]

theorem scaled_origin {n : Int} (scaled : Scaled n us vs) (member : u ∈ vs) :
    ∃ v ∈ us, u.base = v.base ∧ u.pre = v.pre ∧ u.exponent.val = v.exponent.val * n :=
  related_origin scaled member

theorem covers_scaled {n : Int} (scaled : Scaled n us vs) (covers : r.Covers us) : r.Covers vs := by
  intro w member
  obtain ⟨v, origin, base, -⟩ := scaled_origin scaled member
  exact base ▸ covers v origin

theorem scaled_unique {n : Int} (left : Scaled n us vs) (right : Scaled n us ws) : vs = ws := by
  refine List.right_unique_forall₂' ?_ left right
  rintro u v w ⟨base, pre, exponent⟩ ⟨base', pre', exponent'⟩
  refine Factor.parts_injective ?_
  rw [Factor.parts, Factor.parts, base, pre, exponent, base', pre', exponent']

/-- Factors compare by symbols, which within one registry determine the units. -/
theorem agree_of_beq (numbered : r.Numbered) (hus : r.Covers us) (hvs : r.Covers vs)
    (same : (us == vs) = true) :
    List.Forall₂ (fun u v => u.base = v.base ∧ u.samePrefix v = true ∧ u.exponent = v.exponent) us vs := by
  induction us generalizing vs with
  | nil =>
    cases vs with
    | nil => exact .nil
    | cons v vs => cases same
  | cons u us ih =>
    cases vs with
    | nil => cases same
    | cons v vs =>
      rw [List.cons_beq_cons, Bool.and_eq_true, Factor.beq_iff] at same
      rw [Registry.covers_cons] at hus hvs
      obtain ⟨⟨symbol, pre, exponent⟩, rest⟩ := same
      have base : u.base = v.base := numbered.eq_of_symbol hus.1 hvs.1 symbol
      exact .cons ⟨base, Factor.samePrefix_iff.mpr pre, exponent⟩ (ih hus.2 hvs.2 rest)

theorem weigh_of_beq (numbered : r.Numbered) (hus : r.Covers us) (hvs : r.Covers vs)
    (same : (us == vs) = true) : weigh f us = weigh f vs := by
  have agree := agree_of_beq numbered hus hvs same
  clear hus hvs same
  induction agree with
  | nil => rfl
  | cons head _ ih =>
    obtain ⟨base, -, exponent⟩ := head
    rw [weigh_cons, weigh_cons, base, exponent, ih]

/-! ### Tidying -/

variable [Scalar α] {q t : Quantity α} {x y : α}

theorem weigh_absorb (numbered : r.Numbered) (hvs : r.Covers vs) (hu : u.base ∈ r.units)
    (h : absorb u x vs = .ok (ws, y)) : weigh f ws = weigh f vs + u.exponent.val • f u.base := by
  rcases absorb_ok h with ⟨-, rfl, -⟩ | ⟨front, v, back, e, rfl, same, sum, rfl, -⟩
  · rw [weigh_append, weigh_singleton]
  · have base : v.base = u.base := Registry.base_eq numbered (hvs v (by simp)) hu same
    rw [weigh_append, weigh_append, weigh_cons, weigh_cons]
    show _ + (e.val • f v.base + _) = _
    rw [sum, base, add_smul]
    abel

theorem weigh_merge (numbered : r.Numbered) (covers : r.Covers us) (h : merge us = .ok (ws, x)) :
    weigh f ws = weigh f us := by
  induction us using List.reverseRecOn generalizing ws x with
  | nil =>
    cases h
    rfl
  | append_singleton us u ih =>
    rw [Registry.covers_append] at covers
    obtain ⟨vs, y, merged, absorbed⟩ := merge_concat_ok.mp h
    rw [weigh_absorb numbered (covers_merge covers.1 merged) (covers.2 u (by simp)) absorbed,
      ih covers.1 merged, weigh_append, weigh_singleton]

theorem weigh_tidy (numbered : r.Numbered) (covers : r.Covers q.units) (h : q.tidy = .ok t) :
    weigh f t.units = weigh f q.units := by
  obtain ⟨ws, x, merged, rfl⟩ := tidy_ok h
  rw [weigh_perm (Factor.sort_perm _), weigh_filter, weigh_merge numbered covers merged]

/-! ### Inverses and powers -/

theorem inverse_ok (h : q.inverse = .ok t) :
    ∃ us, Scaled (-1) q.units us ∧ Quantity.tidy ⟨Scalar.one / q.amount, us⟩ = .ok t := by
  obtain ⟨us, inverted, h⟩ := bind_ok h
  exact ⟨us, scaled_of_invert inverted, h⟩

theorem pow_ok {n : Exponent} (h : q.pow n = .ok t) :
    (n.val = 0 ∧ t = number Scalar.one) ∨ (n.val = 1 ∧ t = q) ∨
      ∃ us, Scaled n.val q.units us ∧ Quantity.tidy ⟨Scalar.pow q.amount n.val, us⟩ = .ok t := by
  unfold pow at h
  split at h
  · rename_i zero
    exact .inl ⟨by rw [zero]; rfl, (Except.ok.inj h).symm⟩
  · split at h
    · rename_i one
      exact .inr (.inl ⟨by rw [one]; rfl, (Except.ok.inj h).symm⟩)
    · obtain ⟨us, raised, h⟩ := bind_ok h
      exact .inr (.inr ⟨us, scaled_of_raise raised, h⟩)

/-- Raising a quantity brings in neither bases nor prefixes. -/
theorem pow_origin {n : Exponent} (h : q.pow n = .ok t) {w : Factor α} (member : w ∈ t.units) :
    ∃ v ∈ q.units, w.base = v.base ∧ ∀ p ∈ w.pre, p ∈ v.pre := by
  rcases pow_ok h with ⟨-, rfl⟩ | ⟨-, rfl⟩ | ⟨us, scaled, tidied⟩
  · cases member
  · exact ⟨w, member, rfl, fun _ => id⟩
  · obtain ⟨u, present, base, pre⟩ := tidy_origin tidied member
    obtain ⟨v, origin, same, same', -⟩ := scaled_origin scaled present
    exact ⟨v, origin, base.trans same, fun p chosen => same' ▸ pre p chosen⟩

theorem inverse_origin (h : q.inverse = .ok t) {w : Factor α} (member : w ∈ t.units) :
    ∃ v ∈ q.units, w.base = v.base ∧ ∀ p ∈ w.pre, p ∈ v.pre := by
  obtain ⟨us, scaled, tidied⟩ := inverse_ok h
  obtain ⟨u, present, base, pre⟩ := tidy_origin tidied member
  obtain ⟨v, origin, same, same', -⟩ := scaled_origin scaled present
  exact ⟨v, origin, base.trans same, fun p chosen => same' ▸ pre p chosen⟩

theorem covers_inverse (covers : r.Covers q.units) (h : q.inverse = .ok t) : r.Covers t.units := by
  intro w member
  obtain ⟨v, origin, base, -⟩ := inverse_origin h member
  exact base ▸ covers v origin

theorem covers_pow {n : Exponent} (covers : r.Covers q.units) (h : q.pow n = .ok t) : r.Covers t.units := by
  intro w member
  obtain ⟨v, origin, base, -⟩ := pow_origin h member
  exact base ▸ covers v origin

theorem weigh_inverse (numbered : r.Numbered) (covers : r.Covers q.units) (h : q.inverse = .ok t) :
    weigh f t.units = -weigh f q.units := by
  obtain ⟨us, scaled, tidied⟩ := inverse_ok h
  have inside := covers_scaled scaled covers
  rw [weigh_tidy (q := ⟨_, us⟩) numbered inside tidied, weigh_scaled scaled, neg_one_smul]

theorem weigh_pow {n : Exponent} (numbered : r.Numbered) (covers : r.Covers q.units) (h : q.pow n = .ok t) :
    weigh f t.units = n.val • weigh f q.units := by
  rcases pow_ok h with ⟨zero, rfl⟩ | ⟨one, rfl⟩ | ⟨us, scaled, tidied⟩
  · rw [zero, zero_smul]
    rfl
  · rw [one, one_smul]
  · rw [weigh_tidy (q := ⟨_, us⟩) numbered (covers_scaled scaled covers) tidied, weigh_scaled scaled]

end Metrology.Quantity
