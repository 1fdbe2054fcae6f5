import Mathlib.Algebra.BigOperators.Group.List.Basic
import Metrology.Proofs.Prefix
import Metrology.Proofs.Quantity.Weight

/-!
Values of exact quantities. Where `f` says what the base units are worth, a factor is worth its
prefix times its base to the power of the exponent, and a quantity its amount times its factors.
Tidying keeps the value, an inverse inverts it and a power raises it.
-/

namespace Metrology
open Outcome

variable {f : BaseUnit Rat → Rat} {r : Registry Rat} {u v : Factor Rat} {us vs ws : List (Factor Rat)}

/-- Prefix and base to the power of the exponent. -/
def Factor.worth (f : BaseUnit Rat → Rat) (u : Factor Rat) : Rat :=
  (u.multiplier * f u.base) ^ u.exponent.val

namespace Quantity

variable {q t : Quantity Rat} {x y : Rat}

def worth (f : BaseUnit Rat → Rat) (us : List (Factor Rat)) : Rat :=
  (us.map (Factor.worth f)).prod

def valueBy (f : BaseUnit Rat → Rat) (q : Quantity Rat) : Rat :=
  q.amount * worth f q.units

theorem worth_nil : worth f [] = 1 := rfl

theorem worth_cons : worth f (u :: us) = u.worth f * worth f us :=
  List.prod_cons

theorem worth_append : worth f (us ++ vs) = worth f us * worth f vs := by
  rw [worth, List.map_append, List.prod_append]
  rfl

theorem worth_singleton : worth f [u] = u.worth f := by
  rw [worth_cons, worth_nil, mul_one]

theorem worth_congr {g : BaseUnit Rat → Rat} (same : ∀ u ∈ us, f u.base = g u.base) :
    worth f us = worth g us := by
  unfold worth Factor.worth
  rw [List.map_congr_left fun u member => by rw [same u member]]

theorem worth_perm (permutation : us.Perm vs) : worth f us = worth f vs :=
  (permutation.map _).prod_eq

theorem worth_filter : worth f (us.filter (·.exponent != 0)) = worth f us := by
  induction us with
  | nil => rfl
  | cons u us ih =>
    rw [List.filter_cons, worth_cons]
    split
    · rw [worth_cons, ih]
    · rename_i zero
      rw [Exponent.bne_zero, not_not] at zero
      rw [ih, Factor.worth, zero, zpow_zero, one_mul]

/-! ### Prefixes of the tables -/

/-- Units of the registry with prefixes of the tables. -/
structure Sound (r : Registry Rat) (us : List (Factor Rat)) : Prop where
  covers : r.Covers us
  tabled : ∀ u ∈ us, ∀ p ∈ u.pre, p ∈ Prefix.all

theorem Sound.head (sound : Sound r (u :: us)) : u.base ∈ r.units ∧ ∀ p ∈ u.pre, p ∈ Prefix.all :=
  ⟨sound.covers u List.mem_cons_self, sound.tabled u List.mem_cons_self⟩

theorem Sound.tail (sound : Sound r (u :: us)) : Sound r us :=
  ⟨fun v member => sound.covers v (List.mem_cons_of_mem u member),
    fun v member => sound.tabled v (List.mem_cons_of_mem u member)⟩

theorem sound_append : Sound r (us ++ vs) ↔ Sound r us ∧ Sound r vs := by
  constructor
  · intro sound
    have covers := Registry.covers_append.mp sound.covers
    have tabled := List.forall_mem_append.mp sound.tabled
    exact ⟨⟨covers.1, tabled.1⟩, covers.2, tabled.2⟩
  · rintro ⟨left, right⟩
    exact ⟨Registry.covers_append.mpr ⟨left.covers, right.covers⟩,
      List.forall_mem_append.mpr ⟨left.tabled, right.tabled⟩⟩

theorem Sound.of_origin (sound : Sound r us)
    (origin : ∀ w ∈ vs, ∃ v ∈ us, w.base = v.base ∧ ∀ p ∈ w.pre, p ∈ v.pre) : Sound r vs := by
  constructor
  · intro w member
    obtain ⟨v, present, base, -⟩ := origin w member
    exact base ▸ sound.covers v present
  · intro w member p chosen
    obtain ⟨v, present, -, pre⟩ := origin w member
    exact sound.tabled v present p (pre p chosen)

theorem multiplier_ne_zero (tabled : ∀ p ∈ u.pre, p ∈ Prefix.all) : u.multiplier ≠ 0 := by
  unfold Factor.multiplier
  cases chosen : u.pre with
  | none =>
    show (Scalar.one : Rat) ≠ 0
    rw [Scalar.one_eq]
    exact one_ne_zero
  | some p => exact Prefix.multiplier_ne_zero p (tabled p chosen)

theorem multiplier_eq (hu : ∀ p ∈ u.pre, p ∈ Prefix.all) (hv : ∀ p ∈ v.pre, p ∈ Prefix.all)
    (same : v.samePrefix u = true) : v.multiplier = u.multiplier := by
  rw [Factor.multiplier, Prefix.eq_of_symbol? hv hu (Factor.samePrefix_iff.mp same)]
  rfl

theorem worth_of_beq (numbered : r.Numbered) (hus : Sound r us) (hvs : Sound r vs) (same : (us == vs) = true) :
    worth f us = worth f vs := by
  have agree := agree_of_beq numbered hus.covers hvs.covers same
  clear same
  induction agree with
  | nil => rfl
  | cons head _ ih =>
    obtain ⟨base, pre, exponent⟩ := head
    have multiplier := multiplier_eq hvs.head.2 hus.head.2 pre
    rw [worth_cons, worth_cons, Factor.worth, Factor.worth, base, multiplier, exponent, ih hus.tail hvs.tail]

/-! ### Tidying -/

theorem worth_ne_zero (nonzero : ∀ b ∈ r.units, f b ≠ 0) (sound : Sound r us) : worth f us ≠ 0 := by
  induction us with
  | nil => exact one_ne_zero
  | cons u us ih =>
    obtain ⟨member, tabled⟩ := sound.head
    rw [worth_cons]
    exact mul_ne_zero (zpow_ne_zero _ (mul_ne_zero (multiplier_ne_zero tabled) (nonzero _ member)))
      (ih sound.tail)

theorem worth_joined {e : Exponent} (nonzero : f u.base ≠ 0) (base : v.base = u.base)
    (hu : ∀ p ∈ u.pre, p ∈ Prefix.all) (hv : ∀ p ∈ v.pre, p ∈ Prefix.all)
    (sum : e.val = v.exponent.val + u.exponent.val) :
    joinedScale x v u * (joined v u e).worth f = x * (v.worth f * u.worth f) := by
  have hm : u.multiplier ≠ 0 := multiplier_ne_zero hu
  unfold joinedScale joined Factor.worth
  by_cases same : v.samePrefix u = true
  · have equal : v.multiplier = u.multiplier := multiplier_eq hu hv same
    simp only [if_pos same]
    show x * ((v.multiplier * f v.base) ^ e.val) = _
    rw [equal, base, sum, zpow_add₀ (mul_ne_zero hm nonzero)]
  · simp only [if_neg same]
    -- both prefixes are in the scale, and the joined factor has none
    show x * (v.prefixScale * u.prefixScale) * ((Scalar.one * f v.base) ^ e.val) = _
    rw [Factor.prefixScale, Factor.prefixScale, Scalar.pow_eq_zpow, Scalar.pow_eq_zpow, Scalar.one_eq,
      one_mul, base, sum, zpow_add₀ nonzero, mul_zpow, mul_zpow]
    ring

theorem worth_absorb (indexed : r.Numbered) (nonzero : ∀ b ∈ r.units, f b ≠ 0) (hvs : Sound r vs)
    (hu : Sound r [u]) (h : absorb u x vs = .ok (ws, y)) : y * worth f ws = x * (worth f vs * u.worth f) := by
  rcases absorb_ok h with ⟨-, rfl, rfl⟩ | ⟨front, v, back, e, rfl, same, sum, rfl, rfl⟩
  · rw [worth_append, worth_singleton]
  · obtain ⟨member, tabled⟩ := hu.head
    obtain ⟨member', tabled'⟩ := (sound_append.mp hvs).2.head
    have base : v.base = u.base := Registry.base_eq indexed member' member same
    have joint := worth_joined (x := x) (nonzero _ member) base tabled tabled' sum
    rw [worth_append, worth_append, worth_cons, worth_cons]
    calc joinedScale x v u * (worth f front * ((joined v u e).worth f * worth f back))
        = worth f front * (joinedScale x v u * (joined v u e).worth f) * worth f back := by ring
      _ = x * (worth f front * (v.worth f * worth f back) * u.worth f) := by rw [joint]; ring

theorem worth_merge (numbered : r.Numbered) (nonzero : ∀ b ∈ r.units, f b ≠ 0) (sound : Sound r us)
    (h : merge us = .ok (ws, x)) : x * worth f ws = worth f us := by
  induction us using List.reverseRecOn generalizing ws x with
  | nil =>
    cases h
    rw [Scalar.one_eq, one_mul]
  | append_singleton us u ih =>
    obtain ⟨hus, hu⟩ := sound_append.mp sound
    obtain ⟨vs, y, merged, absorbed⟩ := merge_concat_ok.mp h
    have hvs : Sound r vs := hus.of_origin fun _ member => merge_origin merged member
    rw [worth_absorb numbered nonzero hvs hu absorbed, ← mul_assoc, ih hus merged, worth_append, worth_singleton]

theorem sound_tidy (sound : Sound r q.units) (h : q.tidy = .ok t) : Sound r t.units :=
  sound.of_origin fun _ member => tidy_origin h member

theorem value_tidy (numbered : r.Numbered) (nonzero : ∀ b ∈ r.units, f b ≠ 0) (sound : Sound r q.units)
    (h : q.tidy = .ok t) : valueBy f t = valueBy f q := by
  obtain ⟨ws, x, merged, rfl⟩ := tidy_ok h
  rw [valueBy, valueBy, worth_perm (Factor.sort_perm _), worth_filter,
    ← worth_merge numbered nonzero sound merged, mul_assoc]

/-! ### Inverses and powers -/

theorem worth_scaled {n : Int} (scaled : Scaled n us vs) : worth f vs = worth f us ^ n := by
  induction scaled with
  | nil => rw [worth_nil, one_zpow]
  | cons head _ ih =>
    obtain ⟨base, pre, exponent⟩ := head
    rw [worth_cons, worth_cons, ih, mul_zpow, Factor.worth, Factor.worth, Factor.multiplier,
      Factor.multiplier, base, pre, exponent, zpow_mul]

theorem sound_scaled {n : Int} (scaled : Scaled n us vs) (sound : Sound r us) : Sound r vs := by
  refine sound.of_origin fun w member => ?_
  obtain ⟨v, present, base, pre, -⟩ := scaled_origin scaled member
  exact ⟨v, present, base, fun p chosen => pre ▸ chosen⟩

theorem sound_pow {n : Exponent} (sound : Sound r q.units) (h : q.pow n = .ok t) : Sound r t.units := by
  rcases pow_ok h with ⟨-, rfl⟩ | ⟨-, rfl⟩ | ⟨us, scaled, tidied⟩
  · exact sound.of_origin fun w member => absurd member List.not_mem_nil
  · exact sound
  · exact sound_tidy (q := ⟨_, us⟩) (sound_scaled scaled sound) tidied

theorem value_inverse (numbered : r.Numbered) (nonzero : ∀ b ∈ r.units, f b ≠ 0) (sound : Sound r q.units)
    (h : q.inverse = .ok t) : valueBy f t = (valueBy f q)⁻¹ := by
  obtain ⟨us, scaled, tidied⟩ := inverse_ok h
  have inside : Sound r us := sound_scaled scaled sound
  rw [value_tidy (q := ⟨_, us⟩) numbered nonzero inside tidied, valueBy, valueBy, worth_scaled scaled,
    Scalar.one_eq, zpow_neg_one, mul_inv, one_div]

theorem value_pow {n : Exponent} (numbered : r.Numbered) (nonzero : ∀ b ∈ r.units, f b ≠ 0)
    (sound : Sound r q.units) (h : q.pow n = .ok t) : valueBy f t = valueBy f q ^ n.val := by
  rcases pow_ok h with ⟨zero, rfl⟩ | ⟨one, rfl⟩ | ⟨us, scaled, tidied⟩
  · rw [zero, zpow_zero, valueBy, number, worth_nil, Scalar.one_eq, one_mul]
  · rw [one, zpow_one]
  · have inside : Sound r us := sound_scaled scaled sound
    rw [value_tidy (q := ⟨_, us⟩) numbered nonzero inside tidied, valueBy, valueBy, worth_scaled scaled,
      Scalar.pow_eq_zpow, mul_zpow]

end Quantity

end Metrology
