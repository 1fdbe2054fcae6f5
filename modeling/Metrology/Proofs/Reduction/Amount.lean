import Metrology.Proofs.Quantity.Weight
import Metrology.Proofs.Reduction.Passes
import Metrology.Proofs.Registry.Definition

/-!
What reduction does with the amount. `Scaling` relations survive multiplication and division, and
`reduce_related` carries one from the amounts of two quantities of the same units to the amounts of
their reductions. `reduce_amount` is the case that relates all amounts: whether and to what units a
quantity reduces does not depend on its amount.
-/

namespace Metrology.Registry
open Outcome Quantity

variable {α : Type} [Scalar α] {r : Registry α} {q t start : Quantity α} {u : Factor α}
  {us vs : List (Factor α)} {x x' y : α} {R : α → α → Prop}

/-- A relation between amounts that every multiplication and division keeps. -/
structure Scaling (R : α → α → Prop) : Prop where
  mul : ∀ {x y : α} (c : α), R x y → R (x * c) (y * c)
  div : ∀ {x y : α} (c : α), R x y → R (x / c) (y / c)

theorem scaling_true : Scaling fun _ _ : α => True :=
  ⟨fun _ _ => trivial, fun _ _ => trivial⟩

/-! ### No offset scale after the first pass -/

theorem expand_plain (plain : r.Plain) (member : u.base ∈ r.units) (h : r.expand x u = .ok (y, vs))
    {w : Factor α} (present : w ∈ vs) : w.base.definition.offsetScale? = none := by
  rcases expand_ok h with ⟨irreducible, -, rfl⟩ | ⟨metric, q, power, defined, parsed, raised, -, rfl⟩
  · obtain rfl := List.mem_singleton.mp present
    cases kind : u.base.definition <;> simp_all [Definition.offsetScale?, Definition.metric?]
  · obtain ⟨v, origin, base, -⟩ := pow_origin raised present
    rw [base]
    exact plain _ member _ (depends_of_parse defined parsed origin)

theorem expandAll_plain (plain : r.Plain) (covers : r.Covers us) (h : r.expandAll x us = .ok (y, vs))
    {w : Factor α} (present : w ∈ vs) : w.base.definition.offsetScale? = none := by
  induction us generalizing x vs with
  | nil =>
    cases h
    cases present
  | cons u us ih =>
    rw [covers_cons] at covers
    obtain ⟨z, front, back, first, rest, rfl⟩ := expandAll_cons_ok h
    rcases List.mem_append.mp present with here | there
    · exact expand_plain plain covers.1 first here
    · exact ih covers.2 rest there

theorem pass_plain (plain : r.Plain) (covers : r.Covers q.units) (h : r.pass q = .ok t) :
    t.offsetScale? = none := by
  have none : ∀ w ∈ t.units, w.base.definition.offsetScale? = none := by
    intro w member
    obtain ⟨x, y, us, expanded, tidied⟩ := expandAll_of_pass h
    obtain ⟨v, origin, base, -⟩ := tidy_origin tidied member
    rw [base]
    exact expandAll_plain plain covers expanded origin
  exact offsetScale?_of_linear none

/-! ### Related amounts -/

theorem tidy_related (scaling : Scaling R) (related : R x x') (h : Quantity.tidy ⟨x, us⟩ = .ok t) :
    ∃ y, Quantity.tidy ⟨x', us⟩ = .ok ⟨y, t.units⟩ ∧ R t.amount y := by
  obtain ⟨scale, amount, tidied⟩ := tidy_amount x' h
  exact ⟨x' * scale, tidied, by rw [amount]; exact scaling.mul scale related⟩

theorem expand_related (scaling : Scaling R) (related : R x x') (h : r.expand x u = .ok (y, vs)) :
    ∃ y', r.expand x' u = .ok (y', vs) ∧ R y y' := by
  rcases expand_ok h with ⟨irreducible, rfl, rfl⟩ | ⟨metric, q, power, defined, parsed, raised, rfl, rfl⟩
  · refine ⟨_, expand_irreducible irreducible, ?_⟩
    cases u.pre with
    | none => exact related
    | some p => exact scaling.mul _ related
  · exact ⟨_, expand_reducible defined parsed raised, scaling.mul _ related⟩

theorem expandAll_related (scaling : Scaling R) (related : R x x') (h : r.expandAll x us = .ok (y, vs)) :
    ∃ y', r.expandAll x' us = .ok (y', vs) ∧ R y y' := by
  induction us generalizing x x' vs with
  | nil =>
    cases h
    exact ⟨x', rfl, related⟩
  | cons u us ih =>
    obtain ⟨z, front, back, first, rest, rfl⟩ := expandAll_cons_ok h
    obtain ⟨z', first', between⟩ := expand_related scaling related first
    obtain ⟨y', rest', after⟩ := ih between rest
    exact ⟨y', expandAll_cons first' rest', after⟩

theorem pass_related (scaling : Scaling R) (related : R q.amount x)
    (lone : ∀ scale ∈ q.offsetScale?, R (scale.toMetric q.amount) (scale.toMetric x)) (h : r.pass q = .ok t) :
    ∃ y, r.pass ⟨x, q.units⟩ = .ok ⟨y, t.units⟩ ∧ R t.amount y := by
  rcases pass_ok h with ⟨scale, metric, offset, parsed, tidied⟩ | ⟨several, z, us, expanded, tidied⟩
  · obtain ⟨y, tidied', after⟩ := tidy_related scaling (lone scale offset) tidied
    exact ⟨y, (pass_offset (q := ⟨x, q.units⟩) offset parsed).trans tidied', after⟩
  · obtain ⟨z', expanded', between⟩ := expandAll_related scaling related expanded
    obtain ⟨y, tidied', after⟩ := tidy_related scaling between tidied
    exact ⟨y, (pass_factors (q := ⟨x, q.units⟩) several expanded').trans tidied', after⟩

/-- Along an invariant of the passes, of quantities where the relation survives what offset scale there is. -/
theorem passes_related (start' : Quantity α) (scaling : Scaling R) {P : Quantity α → Prop}
    (keeps : ∀ q t, P q → r.pass q = .ok t → P t)
    (survives : ∀ q, P q → ∀ scale ∈ q.offsetScale?, ∀ x, R q.amount x →
      R (scale.toMetric q.amount) (scale.toMetric x))
    (inside : P q) (related : R q.amount x) {n : Nat} (h : r.passes start n q = .ok t) :
    ∃ y, r.passes start' n ⟨x, q.units⟩ = .ok ⟨y, t.units⟩ ∧ R t.amount y := by
  induction n generalizing q x with
  | zero =>
    unfold passes at h
    split at h
    · rename_i canonical
      cases h
      exact ⟨x, passes_of_canonical (q := ⟨x, t.units⟩) (List.all_eq_true.mp canonical) 0, related⟩
    · cases h
  | succ n ih =>
    unfold passes at h
    split at h
    · rename_i canonical
      cases h
      exact ⟨x, passes_of_canonical (q := ⟨x, t.units⟩) (List.all_eq_true.mp canonical) (n + 1), related⟩
    · rename_i reducible
      obtain ⟨next, passed, h⟩ := bind_ok h
      obtain ⟨z, passed', between⟩ :=
        pass_related scaling related (fun scale offset => survives q inside scale offset x related) passed
      obtain ⟨y, rest, after⟩ := ih (keeps q next inside passed) between h
      refine ⟨y, ?_, after⟩
      unfold passes
      rw [if_neg reducible]
      exact bind_ok_iff.mpr ⟨_, passed', rest⟩

theorem restoreKilogram_related (scaling : Scaling R) (related : R q.amount x) :
    ∃ y, restoreKilogram ⟨x, q.units⟩ = ⟨y, (restoreKilogram q).units⟩ ∧ R (restoreKilogram q).amount y := by
  unfold restoreKilogram
  cases q.units.find? isGram with
  | none => exact ⟨x, rfl, related⟩
  | some gram => exact ⟨_, rfl, scaling.div _ related⟩

/-- Once both quantities are tidied to the same units, `p` reduces like `q`, whatever it was before. -/
theorem reduce_related_of_tidy (scaling : Scaling R) {P : Quantity α → Prop}
    (keeps : ∀ q t, P q → r.pass q = .ok t → P t)
    (survives : ∀ q, P q → ∀ scale ∈ q.offsetScale?, ∀ x, R q.amount x →
      R (scale.toMetric q.amount) (scale.toMetric x))
    {p tidied : Quantity α} (first : q.tidy = .ok tidied) (second : p.tidy = .ok ⟨x, tidied.units⟩)
    (starts : P tidied) (related : R tidied.amount x) (h : r.reduce q = .ok t) :
    ∃ y, r.reduce p = .ok ⟨y, t.units⟩ ∧ R t.amount y := by
  obtain ⟨tidied', reduced, same, passed, rfl⟩ := reduce_ok h
  obtain rfl : tidied = tidied' := Except.ok.inj (first.symm.trans same)
  obtain ⟨z, passed', after⟩ := passes_related p scaling keeps survives starts related passed
  obtain ⟨y, restored, last⟩ := restoreKilogram_related scaling after
  refine ⟨y, ?_, last⟩
  rw [← restored]
  exact reduce_of_passes second passed'

theorem reduce_related_of (scaling : Scaling R) {P : Quantity α → Prop}
    (keeps : ∀ q t, P q → r.pass q = .ok t → P t)
    (survives : ∀ q, P q → ∀ scale ∈ q.offsetScale?, ∀ x, R q.amount x →
      R (scale.toMetric q.amount) (scale.toMetric x))
    (starts : ∀ tidied, q.tidy = .ok tidied → P tidied) (related : R q.amount x) (h : r.reduce q = .ok t) :
    ∃ y, r.reduce ⟨x, q.units⟩ = .ok ⟨y, t.units⟩ ∧ R t.amount y := by
  obtain ⟨tidied, -, first, -, -⟩ := reduce_ok h
  obtain ⟨y, second, before⟩ := tidy_related scaling related first
  exact reduce_related_of_tidy scaling keeps survives first second (starts tidied first) before h

/-- Quantities of the same units and related amounts reduce to such quantities. In a plain registry only
the first pass can meet an offset scale, so only there the relation has to survive one. -/
theorem reduce_related (indexed : r.Indexed) (plain : r.Plain) (scaling : Scaling R) (covers : r.Covers q.units)
    (related : R q.amount x)
    (lone : ∀ tidied, q.tidy = .ok tidied → ∀ scale ∈ tidied.offsetScale?, ∀ y, R tidied.amount y →
      R (scale.toMetric tidied.amount) (scale.toMetric y))
    (h : r.reduce q = .ok t) : ∃ y, r.reduce ⟨x, q.units⟩ = .ok ⟨y, t.units⟩ ∧ R t.amount y := by
  refine reduce_related_of scaling (P := fun q => r.Covers q.units ∧ ∀ scale ∈ q.offsetScale?, ∀ x,
    R q.amount x → R (scale.toMetric q.amount) (scale.toMetric x)) ?_ (fun q before => before.2) ?_ related h
  · intro q t before passed
    have none : t.offsetScale? = none := pass_plain plain before.1 passed
    exact ⟨covers_pass indexed before.1 passed, by simp [none]⟩
  · exact fun tidied first => ⟨tidy_covers covers first, lone tidied first⟩

/-- Whether and to what units a quantity reduces does not depend on its amount. -/
theorem reduce_amount (x : α) (h : r.reduce q = .ok t) : ∃ y, r.reduce ⟨x, q.units⟩ = .ok ⟨y, t.units⟩ := by
  obtain ⟨y, reduced, -⟩ := reduce_related_of (P := fun _ => True) scaling_true (fun _ _ _ _ => trivial)
    (fun _ _ _ _ _ _ => trivial) (fun _ _ => trivial) trivial h
  exact ⟨y, reduced⟩

theorem reduce_of_same_tidy {p tidied : Quantity α} (first : q.tidy = .ok tidied)
    (second : p.tidy = .ok ⟨x, tidied.units⟩) (h : r.reduce q = .ok t) : ∃ y, r.reduce p = .ok ⟨y, t.units⟩ := by
  obtain ⟨y, reduced, -⟩ := reduce_related_of_tidy (P := fun _ => True) scaling_true (fun _ _ _ _ => trivial)
    (fun _ _ _ _ _ _ => trivial) first second trivial trivial h
  exact ⟨y, reduced⟩

theorem reduce_of_tidy (numbered : r.Numbered) (covers : r.Covers q.units) {tidied : Quantity α}
    (first : q.tidy = .ok tidied) (x : α) (h : r.reduce q = .ok t) :
    ∃ y, r.reduce ⟨x, tidied.units⟩ = .ok ⟨y, t.units⟩ :=
  reduce_of_same_tidy first (tidy_of_tidy (tidy_shape numbered covers first)) h

/-- A quantity reduces where some amount of its tidy units does. -/
theorem reduce_of_tidied (numbered : r.Numbered) (covers : r.Covers q.units) {tidied : Quantity α}
    (first : q.tidy = .ok tidied) (h : r.reduce ⟨x, tidied.units⟩ = .ok t) :
    ∃ y, r.reduce q = .ok ⟨y, t.units⟩ :=
  reduce_of_same_tidy (tidy_of_tidy (tidy_shape numbered covers first)) first h

end Metrology.Registry
