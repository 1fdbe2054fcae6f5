import Mathlib.Algebra.Order.BigOperators.Group.List
import Mathlib.Algebra.Order.Ring.Nat
import Mathlib.Tactic.Ring
import Metrology.Proofs.Quantity.Totals

/-!
Loads: sums over the factors of a list that count an exponent by its magnitude. Merging may lower a load
and never raises it, and a power multiplies it at most. A list can be merged where the load of every
single symbol is in range (`tidy_of_fits`), since each partial sum of its exponents is.
-/

namespace Metrology

variable {α : Type}

namespace Exponent

/-- The magnitudes up to this one are in range with either sign. -/
def greatest : Nat := 2147483647

theorem exists_ofInt? {n : Int} (bound : n.natAbs ≤ greatest) : ∃ e, ofInt? n = some e := by
  unfold greatest at bound
  have range : -2147483648 ≤ n ∧ n ≤ 2147483647 := by omega
  exact ⟨⟨n, range.1, range.2⟩, dif_pos range⟩

end Exponent

namespace Quantity
open Outcome Registry

variable {f g : BaseUnit α → Nat} {us vs ws : List (Factor α)} {u v : Factor α} {s : String}

/-- The sum of `f` over the bases, each times the magnitude of its exponent. -/
def load (f : BaseUnit α → Nat) (us : List (Factor α)) : Nat :=
  (us.map fun u => u.exponent.val.natAbs * f u.base).sum

theorem load_nil : load f [] = 0 := rfl

theorem load_cons : load f (u :: us) = u.exponent.val.natAbs * f u.base + load f us :=
  List.sum_cons

theorem load_append : load f (us ++ vs) = load f us + load f vs := by
  rw [load, List.map_append, List.sum_append]
  rfl

theorem load_singleton : load f [u] = u.exponent.val.natAbs * f u.base := by
  rw [load_cons, load_nil, Nat.add_zero]

theorem load_perm (permutation : us.Perm vs) : load f us = load f vs :=
  (permutation.map _).sum_eq

theorem load_sublist (sublist : us.Sublist vs) : load f us ≤ load f vs :=
  (sublist.map _).sum_le_sum fun _ _ => Nat.zero_le _

theorem load_of_mem (member : u ∈ us) : u.exponent.val.natAbs * f u.base ≤ load f us := by
  rw [← load_singleton (f := f)]
  exact load_sublist (List.singleton_sublist.mpr member)

theorem load_mono (le : ∀ u ∈ us, f u.base ≤ g u.base) : load f us ≤ load g us :=
  List.sum_le_sum fun u member => Nat.mul_le_mul_left _ (le u member)

theorem load_scaled {n : Int} (scaled : Scaled n us vs) : load f vs = n.natAbs * load f us := by
  induction scaled with
  | nil => rfl
  | cons head _ ih =>
    obtain ⟨base, -, exponent⟩ := head
    rw [load_cons, load_cons, ih, base, exponent, Int.natAbs_mul]
    ring

/-- The load of one symbol. -/
def single (s : String) (b : BaseUnit α) : Nat :=
  if b.symbol = s then 1 else 0

theorem single_self (b : BaseUnit α) : single b.symbol b = 1 :=
  if_pos rfl

theorem single_le_one (s : String) (b : BaseUnit α) : single s b ≤ 1 := by
  unfold single
  split <;> omega

/-- Where symbols are distinct, each has the load of one factor at most. -/
theorem load_single_le (distinct : (us.map (·.base.symbol)).Nodup) {n : Nat}
    (bound : ∀ u ∈ us, u.exponent.val.natAbs ≤ n) : load (single s) us ≤ n := by
  induction us with
  | nil => exact Nat.zero_le n
  | cons u us ih =>
    rw [List.map_cons, List.nodup_cons] at distinct
    rw [List.forall_mem_cons] at bound
    rw [load_cons, single]
    by_cases here : u.base.symbol = s
    · have rest : load (single s) us = 0 := by
        refine Nat.le_zero.mp ((load_mono (g := fun _ => 0) ?_).trans (by simp [load]))
        intro v member
        have other : v.base.symbol ≠ s := fun same =>
          distinct.1 (List.mem_map.mpr ⟨v, member, same.trans here.symm⟩)
        rw [single, if_neg other]
      rw [if_pos here, rest]
      simpa using bound.1
    · rw [if_neg here, Nat.mul_zero, Nat.zero_add]
      exact ih distinct.2 bound.2

/-! ### Merging -/

variable [Scalar α] {r : Registry α} {q t : Quantity α} {x y : α} {n : Exponent}

theorem load_absorb (numbered : r.Numbered) (hvs : r.Covers vs) (hu : u.base ∈ r.units)
    (h : absorb u x vs = .ok (ws, y)) : load f ws ≤ load f (vs ++ [u]) := by
  rcases absorb_ok h with ⟨-, rfl, -⟩ | ⟨front, v, back, e, rfl, same, sum, rfl, -⟩
  · exact Nat.le_refl _
  · have base : v.base = u.base := Registry.base_eq numbered (hvs v (by simp)) hu same
    have triangle : e.val.natAbs * f v.base ≤
        v.exponent.val.natAbs * f v.base + u.exponent.val.natAbs * f u.base := by
      rw [sum, base, ← Nat.add_mul]
      exact Nat.mul_le_mul_right _ (Int.natAbs_add_le _ _)
    rw [load_append, load_append, load_append, load_cons, load_cons, load_singleton]
    show _ + (e.val.natAbs * f v.base + _) ≤ _
    omega

theorem load_merge (numbered : r.Numbered) (covers : r.Covers us) (h : merge us = .ok (ws, x)) :
    load f ws ≤ load f us := by
  induction us using List.reverseRecOn generalizing ws x with
  | nil =>
    cases h
    exact Nat.le_refl _
  | append_singleton us u ih =>
    rw [Registry.covers_append] at covers
    obtain ⟨vs, y, merged, absorbed⟩ := merge_concat_ok.mp h
    refine (load_absorb numbered (covers_merge covers.1 merged) (covers.2 u (by simp)) absorbed).trans ?_
    rw [load_append, load_append]
    exact Nat.add_le_add_right (ih covers.1 merged) _

theorem load_tidy (numbered : r.Numbered) (covers : r.Covers q.units) (h : q.tidy = .ok t) :
    load f t.units ≤ load f q.units := by
  obtain ⟨ws, x, merged, rfl⟩ := tidy_ok h
  rw [load_perm (Factor.sort_perm _)]
  exact (load_sublist List.filter_sublist).trans (load_merge numbered covers merged)

theorem load_pow (numbered : r.Numbered) (covers : r.Covers q.units) (h : q.pow n = .ok t) :
    load f t.units ≤ n.val.natAbs * load f q.units := by
  rcases pow_ok h with ⟨-, rfl⟩ | ⟨one, rfl⟩ | ⟨us, scaled, tidied⟩
  · exact Nat.zero_le _
  · rw [one, Int.natAbs_one, Nat.one_mul]
  · rw [← load_scaled scaled]
    exact load_tidy (q := ⟨_, us⟩) numbered (covers_scaled scaled covers) tidied

/-! ### Loads in range -/

/-- The load of each symbol is in range. -/
def Fits (us : List (Factor α)) : Prop :=
  ∀ s, load (single s) us ≤ Exponent.greatest

omit [Scalar α] in
theorem natAbs_totals_le : (totals us s).natAbs ≤ load (single s) us := by
  induction us with
  | nil => exact Nat.le_refl 0
  | cons u us ih =>
    rw [totals_cons, load_cons, single]
    refine (Int.natAbs_add_le _ _).trans (Nat.add_le_add ?_ ih)
    split <;> simp

omit [Scalar α] in
theorem Fits.inRange (fits : Fits us) : InRange us := by
  intro vs start x
  have bound : (totals vs x).natAbs ≤ Exponent.greatest :=
    natAbs_totals_le.trans ((load_sublist start.sublist).trans (fits x))
  unfold Exponent.greatest at bound
  omega

theorem tidy_of_fits (numbered : r.Numbered) (covers : r.Covers q.units) (fits : Fits q.units) :
    ∃ t, q.tidy = .ok t :=
  (tidy_ok_iff numbered covers).mpr fits.inRange

theorem pow_of_fits (numbered : r.Numbered) (covers : r.Covers q.units)
    (fits : ∀ s, n.val.natAbs * load (single s) q.units ≤ Exponent.greatest) : ∃ t, q.pow n = .ok t := by
  unfold pow
  split
  · exact ⟨_, rfl⟩
  · split
    · exact ⟨_, rfl⟩
    · have raises : ∀ u ∈ q.units, ∃ v, u.raise n = .ok v := by
        intro u member
        have magnitude : (u.exponent.val * n.val).natAbs ≤ Exponent.greatest := by
          have own := load_of_mem (f := single u.base.symbol) member
          rw [single_self, Nat.mul_one] at own
          rw [Int.natAbs_mul, Nat.mul_comm]
          exact (Nat.mul_le_mul_left _ own).trans (fits u.base.symbol)
        obtain ⟨e, product⟩ := Exponent.exists_ofInt? magnitude
        exact ⟨{ u with exponent := e }, by rw [Factor.raise, Exponent.mul?, product]; rfl⟩
      obtain ⟨us, raised⟩ := mapM_of_forall raises
      have scaled := scaled_of_raise raised
      obtain ⟨t, tidied⟩ := tidy_of_fits (q := ⟨Scalar.pow q.amount n.val, us⟩) numbered
        (covers_scaled scaled covers) fun s => (load_scaled scaled).trans_le (fits s)
      exact ⟨t, bind_ok_iff.mpr ⟨us, raised, tidied⟩⟩

end Quantity

end Metrology
