import Mathlib.Data.List.Induction
import Metrology.Quantity.Basic
import Metrology.Proofs.Registry.Reachable
import Metrology.Proofs.Scalar.Product

/-!
The canonical shape of a list of factors and how `Quantity.tidy` reaches it. `absorb_ok` says once
what merging one factor can do; `merge_induction` carries an invariant over a whole list. Main
statements: `tidy_shape` and, for a list that has the shape already, `tidy_of_tidy` and `tidy_fixed`.
-/

namespace Metrology
open Outcome

variable {α : Type}

attribute [ext] Quantity

namespace Quantity

variable {q t : Quantity α} {u v : Factor α} {us vs ws : List (Factor α)} {x y : α}

/-- One factor for each base, no exponent zero, in canonical order. -/
structure Tidy (us : List (Factor α)) : Prop where
  distinct : (us.map (·.base.symbol)).Nodup
  nonzero : ∀ u ∈ us, u.exponent.val ≠ 0
  ordered : us.Pairwise Factor.Before

theorem tidy_nil : Tidy ([] : List (Factor α)) :=
  ⟨List.nodup_nil, fun _ member => absurd member List.not_mem_nil, .nil⟩

theorem tidy_singleton (nonzero : u.exponent.val ≠ 0) : Tidy [u] := by
  refine ⟨List.nodup_singleton _, ?_, List.pairwise_singleton _ _⟩
  intro v member
  rw [List.mem_singleton.mp member]
  exact nonzero

/-! ### Merging one factor -/

variable [Scalar α]

/-- `v` with the exponent `e`, without its prefix where that of `u` is another. -/
def joined (v u : Factor α) (e : Exponent) : Factor α :=
  { v with pre := if v.samePrefix u then v.pre else none, exponent := e }

/-- The scale `x` with the prefixes that `v` and `u` lose when they are joined. -/
def joinedScale (x : α) (v u : Factor α) : α :=
  if v.samePrefix u then x else x * (v.prefixScale * u.prefixScale)

/-- A factor either is new and goes to the end, or joins the first factor with its base. -/
theorem absorb_ok (h : absorb u x vs = .ok (ws, y)) :
    ((∀ v ∈ vs, ¬v.sameBase u = true) ∧ ws = vs ++ [u] ∧ y = x) ∨
      ∃ front v back e, vs = front ++ v :: back ∧ v.sameBase u = true ∧
        e.val = v.exponent.val + u.exponent.val ∧
        ws = front ++ joined v u e :: back ∧ y = joinedScale x v u := by
  induction vs generalizing ws with
  | nil =>
    cases h
    exact .inl ⟨by simp, rfl, rfl⟩
  | cons v vs ih =>
    unfold absorb at h
    by_cases same : v.sameBase u = true
    · rw [if_pos same] at h
      split at h
      · cases h
      · rename_i e sum
        refine .inr ⟨[], v, vs, e, rfl, same, Exponent.add?_ok sum, ?_⟩
        unfold joined joinedScale
        by_cases prefixes : v.samePrefix u = true
        · rw [if_pos prefixes] at h
          cases h
          rw [if_pos prefixes, if_pos prefixes]
          exact ⟨rfl, rfl⟩
        · rw [if_neg prefixes] at h
          cases h
          rw [if_neg prefixes, if_neg prefixes]
          exact ⟨rfl, rfl⟩
    · rw [if_neg same] at h
      obtain ⟨⟨rest, y'⟩, absorbed, h⟩ := bind_ok h
      cases h
      rcases ih absorbed with ⟨fresh, rfl, rfl⟩ | ⟨front, w, back, e, rfl, sameW, sum, rfl, rfl⟩
      · exact .inl ⟨List.forall_mem_cons.mpr ⟨same, fresh⟩, rfl, rfl⟩
      · exact .inr ⟨v :: front, w, back, e, rfl, sameW, sum, rfl, rfl⟩

theorem absorb_of_fresh (fresh : ∀ v ∈ vs, ¬v.sameBase u = true) : absorb u x vs = .ok (vs ++ [u], x) := by
  induction vs with
  | nil => rfl
  | cons v vs ih =>
    rw [List.forall_mem_cons] at fresh
    rw [absorb, if_neg fresh.1, ih fresh.2]
    rfl

/-- A factor is merged wherever the sums of exponents are in range. -/
theorem absorb_of_fits (fits : ∀ v ∈ vs, v.sameBase u = true → ∃ e, v.exponent.add? u.exponent = some e) :
    ∃ ws y, absorb u x vs = .ok (ws, y) := by
  induction vs with
  | nil => exact ⟨[u], x, rfl⟩
  | cons v vs ih =>
    rw [List.forall_mem_cons] at fits
    unfold absorb
    by_cases same : v.sameBase u = true
    · obtain ⟨e, sum⟩ := fits.1 same
      rw [if_pos same, sum]
      by_cases prefixes : v.samePrefix u = true
      · exact ⟨_, _, if_pos prefixes⟩
      · exact ⟨_, _, if_neg prefixes⟩
    · obtain ⟨ws, y, absorbed⟩ := ih fits.2
      rw [if_neg same]
      exact ⟨v :: ws, y, bind_ok_iff.mpr ⟨_, absorbed, rfl⟩⟩

theorem absorb_distinct (distinct : (vs.map (·.base.symbol)).Nodup) (h : absorb u x vs = .ok (ws, y)) :
    (ws.map (·.base.symbol)).Nodup := by
  rcases absorb_ok h with ⟨fresh, rfl, -⟩ | ⟨front, v, back, e, rfl, -, -, rfl, -⟩
  · rw [List.map_append, List.nodup_append]
    refine ⟨distinct, by simp, ?_⟩
    intro a old b new same
    obtain ⟨v, member, rfl⟩ := List.mem_map.mp old
    obtain rfl : b = u.base.symbol := by simpa using new
    exact fresh v member (Factor.sameBase_iff.mpr same)
  · simpa [joined] using distinct

/-- Each factor of the result has its base from one that went in, and its prefix or none. -/
theorem absorb_origin (h : absorb u x vs = .ok (ws, y)) {w : Factor α} (member : w ∈ ws) :
    ∃ v ∈ vs ++ [u], w.base = v.base ∧ ∀ p ∈ w.pre, p ∈ v.pre := by
  rcases absorb_ok h with ⟨-, rfl, -⟩ | ⟨front, v, back, e, rfl, -, -, rfl, -⟩
  · exact ⟨w, member, rfl, fun _ => id⟩
  · rcases List.mem_append.mp member with old | member
    · exact ⟨w, by simp [old], rfl, fun _ => id⟩
    · rcases List.mem_cons.mp member with rfl | old
      · refine ⟨v, by simp, rfl, ?_⟩
        intro p chosen
        unfold joined at chosen
        split at chosen
        · exact chosen
        · cases chosen
      · exact ⟨w, by simp [old], rfl, fun _ => id⟩

/-! ### Merging a list -/

/-- The last factor is merged into what the others come to. -/
theorem merge_concat_ok :
    merge (us ++ [u]) = .ok (ws, y) ↔ ∃ vs x, merge us = .ok (vs, x) ∧ absorb u x vs = .ok (ws, y) := by
  unfold merge
  rw [List.foldlM_append, bind_ok_iff]
  simp only [List.foldlM_cons, List.foldlM_nil, bind_pure, Prod.exists]

/-- An invariant of the merged list and the scale, carried over the list from its start. -/
theorem merge_induction {P : List (Factor α) → List (Factor α) → α → Prop} (nil : P [] [] Scalar.one)
    (step : ∀ us u vs x ws y, P us vs x → absorb u x vs = .ok (ws, y) → P (us ++ [u]) ws y)
    (h : merge us = .ok (ws, x)) : P us ws x := by
  induction us using List.reverseRecOn generalizing ws x with
  | nil =>
    cases h
    exact nil
  | append_singleton us u ih =>
    obtain ⟨vs, y, merged, absorbed⟩ := merge_concat_ok.mp h
    exact step _ _ _ _ _ _ (ih merged) absorbed

theorem merge_distinct (h : merge us = .ok (ws, x)) : (ws.map (·.base.symbol)).Nodup :=
  merge_induction (P := fun _ ws _ => (ws.map (·.base.symbol)).Nodup) List.nodup_nil
    (fun _ _ _ _ _ _ distinct absorbed => absorb_distinct distinct absorbed) h

theorem merge_origin (h : merge us = .ok (ws, x)) {w : Factor α} (member : w ∈ ws) :
    ∃ v ∈ us, w.base = v.base ∧ ∀ p ∈ w.pre, p ∈ v.pre := by
  refine merge_induction (P := fun us ws _ => ∀ w ∈ ws, ∃ v ∈ us, w.base = v.base ∧ ∀ p ∈ w.pre, p ∈ v.pre)
    (by simp) ?_ h w member
  intro us u vs x ws y known absorbed w member
  obtain ⟨v, origin, base, pre⟩ := absorb_origin absorbed member
  rcases List.mem_append.mp origin with old | new
  · obtain ⟨v', earlier, base', pre'⟩ := known v old
    exact ⟨v', by simp [earlier], base.trans base', fun p chosen => pre' p (pre p chosen)⟩
  · exact ⟨v, by simp [List.mem_singleton.mp new], base, pre⟩

theorem covers_merge {r : Registry α} (covers : r.Covers us) (h : merge us = .ok (ws, x)) : r.Covers ws := by
  intro w member
  obtain ⟨v, origin, base, _⟩ := merge_origin h member
  exact base ▸ covers v origin

theorem merge_of_distinct (distinct : (us.map (·.base.symbol)).Nodup) : merge us = .ok (us, Scalar.one) := by
  induction us using List.reverseRecOn with
  | nil => rfl
  | append_singleton us u ih =>
    rw [List.map_append, List.nodup_append] at distinct
    have fresh : ∀ v ∈ us, ¬v.sameBase u = true := by
      intro v member same
      exact distinct.2.2 _ (List.mem_map_of_mem member) _ (by simp) (Factor.sameBase_iff.mp same)
    exact merge_concat_ok.mpr ⟨us, Scalar.one, ih distinct.1, absorb_of_fresh fresh⟩

/-! ### Tidying -/

theorem tidy_ok (h : q.tidy = .ok t) :
    ∃ ws x, merge q.units = .ok (ws, x) ∧
      t = ⟨q.amount * x, Factor.sort (ws.filter (·.exponent != 0))⟩ := by
  obtain ⟨⟨ws, x⟩, merged, h⟩ := bind_ok h
  exact ⟨ws, x, merged, pure_ok h⟩

/-- What is merged is tidied as well. -/
theorem tidy_of_merge {ws : List (Factor α)} (merged : merge q.units = .ok (ws, x)) :
    q.tidy = .ok ⟨q.amount * x, Factor.sort (ws.filter (·.exponent != 0))⟩ :=
  bind_ok_iff.mpr ⟨_, merged, rfl⟩

theorem tidy_iff_merge : (∃ t, q.tidy = .ok t) ↔ ∃ ws x, merge q.units = .ok (ws, x) := by
  constructor
  · rintro ⟨t, h⟩
    obtain ⟨ws, x, merged, -⟩ := tidy_ok h
    exact ⟨ws, x, merged⟩
  · rintro ⟨ws, x, merged⟩
    exact ⟨_, tidy_of_merge merged⟩

omit [Scalar α] in
theorem mem_sorted {w : Factor α} :
    w ∈ Factor.sort (ws.filter (·.exponent != 0)) ↔ w ∈ ws ∧ w.exponent.val ≠ 0 := by
  rw [(Factor.sort_perm _).mem_iff, List.mem_filter, Exponent.bne_zero]

theorem tidy_origin (h : q.tidy = .ok t) {w : Factor α} (member : w ∈ t.units) :
    ∃ v ∈ q.units, w.base = v.base ∧ ∀ p ∈ w.pre, p ∈ v.pre := by
  obtain ⟨ws, x, merged, rfl⟩ := tidy_ok h
  exact merge_origin merged (mem_sorted.mp member).1

theorem tidy_covers {r : Registry α} (covers : r.Covers q.units) (h : q.tidy = .ok t) : r.Covers t.units := by
  intro w member
  obtain ⟨v, origin, base, _⟩ := tidy_origin h member
  exact base ▸ covers v origin

/-- Tidying reaches the canonical shape. -/
theorem tidy_shape {r : Registry α} (numbered : r.Numbered) (covers : r.Covers q.units)
    (h : q.tidy = .ok t) : Tidy t.units := by
  have inside := tidy_covers covers h
  obtain ⟨ws, x, merged, rfl⟩ := tidy_ok h
  have distinct : ((Factor.sort (ws.filter (·.exponent != 0))).map (·.base.symbol)).Nodup := by
    rw [((Factor.sort_perm _).map _).nodup_iff]
    exact (merge_distinct merged).sublist (List.filter_sublist.map _)
  refine ⟨distinct, fun u member => (mem_sorted.mp member).2, ?_⟩
  refine ((Factor.sort_pairwise _).and (List.pairwise_map.mp distinct)).imp_of_mem ?_
  intro u v hu hv ⟨precedes, different⟩
  rcases Factor.precedes_iff.mp precedes with signs | ⟨signs, order⟩
  · exact .inl signs
  · refine .inr ⟨signs, lt_of_le_of_ne order fun same => different ?_⟩
    rw [numbered.eq_of_order (inside u hu) (inside v hv) same]

/-- Where the bases are distinct and no exponent is zero, all that is left is to sort. -/
theorem tidy_of_distinct (distinct : (us.map (·.base.symbol)).Nodup) (nonzero : ∀ u ∈ us, u.exponent.val ≠ 0) :
    Quantity.tidy ⟨x, us⟩ = .ok ⟨x * Scalar.one, Factor.sort us⟩ := by
  have kept : us.filter (·.exponent != 0) = us :=
    List.filter_eq_self.mpr fun u member => Exponent.bne_zero.mpr (nonzero u member)
  refine bind_ok_iff.mpr ⟨_, merge_of_distinct distinct, ?_⟩
  simp only [kept]
  rfl

theorem tidy_of_tidy (tidy : Tidy us) : Quantity.tidy ⟨x, us⟩ = .ok ⟨x * Scalar.one, us⟩ := by
  rw [tidy_of_distinct tidy.distinct tidy.nonzero, Factor.sort_of_ordered tidy.ordered]

theorem tidy_fixed [Scalar.Lawful α] (tidy : Tidy q.units) : q.tidy = .ok q := by
  have tidied := tidy_of_tidy (x := q.amount) tidy
  rwa [Scalar.Lawful.mul_one] at tidied

/-- Whether and to what units a quantity is tidied does not depend on its amount. -/
theorem tidy_amount (x : α) (h : Quantity.tidy ⟨y, us⟩ = .ok t) :
    ∃ scale, t.amount = y * scale ∧ Quantity.tidy ⟨x, us⟩ = .ok ⟨x * scale, t.units⟩ := by
  obtain ⟨ws, scale, merged, rfl⟩ := tidy_ok h
  exact ⟨scale, rfl, tidy_of_merge merged⟩

end Quantity

end Metrology
