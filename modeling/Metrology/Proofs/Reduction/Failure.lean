import Metrology.Proofs.Reduction.Passes
import Metrology.Proofs.Registry.Fault

/-!
How reduction fails. Merging and raising fail only on an exponent that leaves its range, and a pass
fails in that way or on a definition that cannot be read (`pass_error`). No definition is unreadable for
the reason that the passes were used up (`parse_error`).
-/

namespace Metrology

variable {α : Type} {e : Error}

namespace Error

def IsOutOfRange (e : Error) : Prop :=
  ∃ unit, e = .exponentOutOfRange unit

/-- The passes are used up. -/
def IsNotReduced (e : Error) : Prop :=
  ∃ quantity passes, e = .notReduced quantity passes

theorem IsOutOfRange.reduced (h : e.IsOutOfRange) : ¬e.IsNotReduced := by
  obtain ⟨unit, rfl⟩ := h
  rintro ⟨_, _, same⟩
  cases same

end Error

open Outcome

namespace Factor

variable {u : Factor α} {n : Exponent}

theorem withExponent?_error {x : Option Exponent} (h : u.withExponent? x = .error e) : e.IsOutOfRange := by
  cases x with
  | none => exact ⟨u.spelling, (Except.error.inj h).symm⟩
  | some _ => cases h

end Factor

namespace Quantity

variable [Scalar α] {q : Quantity α} {u : Factor α} {us vs : List (Factor α)} {x : α}

theorem absorb_error (h : absorb u x vs = .error e) : e.IsOutOfRange := by
  induction vs with
  | nil => cases h
  | cons v vs ih =>
    unfold absorb at h
    split at h
    · split at h
      · exact ⟨u.spelling, (Except.error.inj h).symm⟩
      · split at h <;> cases h
    · rcases bind_error h with rest | ⟨_, -, h⟩
      · exact ih rest
      · cases h

theorem tidy_error (h : q.tidy = .error e) : e.IsOutOfRange := by
  rcases bind_error h with merged | ⟨_, -, h⟩
  · obtain ⟨_, _, _, absorbed⟩ := foldlM_error merged
    exact absorb_error absorbed
  · cases h

theorem pow_error {n : Exponent} (h : q.pow n = .error e) : e.IsOutOfRange := by
  unfold pow at h
  split at h
  · cases h
  · split at h
    · cases h
    · rcases bind_error h with raised | ⟨us, -, tidied⟩
      · obtain ⟨u, -, failed⟩ := mapM_error raised
        exact Factor.withExponent?_error failed
      · exact tidy_error tidied

end Quantity

namespace Registry
open Quantity

variable [Scalar α] {r : Registry α} {q : Quantity α} {u : Factor α} {us : List (Factor α)} {x : α}

/-! ### Definitions -/

/-- The definition of a unit cannot be read, for the reason `e`. -/
def Unreadable (r : Registry α) (e : Error) (u : BaseUnit α) : Prop :=
  ∃ metric ∈ u.definition.metric?, r.parse metric = .error e

omit [Scalar α] in
theorem Fault.reduced {cs : List Char} (fault : Fault r cs e) : ¬e.IsNotReduced := by
  rintro ⟨quantity, passes, rfl⟩
  cases fault with
  | currency _ fault => cases fault
  | token _ _ fault => cases fault

/-- No text is unreadable because passes were used up. -/
theorem parse_error {text : String} (h : r.parse text = .error e) : ¬e.IsNotReduced :=
  (fault_of_parse h).reduced

theorem Unreadable.reduced {b : BaseUnit α} (h : r.Unreadable e b) : ¬e.IsNotReduced := by
  obtain ⟨metric, -, failed⟩ := h
  exact parse_error failed

/-! ### One pass -/

theorem expand_error (h : r.expand x u = .error e) : e.IsOutOfRange ∨ r.Unreadable e u.base := by
  unfold expand at h
  split at h
  · cases h
  · rename_i metric defined
    rcases bind_error h with unread | ⟨q, -, h⟩
    · exact .inr ⟨metric, defined, unread⟩
    · rcases bind_error h with raised | ⟨_, -, h⟩
      · exact .inl (pow_error raised)
      · cases h

theorem expandAll_error (h : r.expandAll x us = .error e) :
    e.IsOutOfRange ∨ ∃ u ∈ us, r.Unreadable e u.base := by
  induction us generalizing x with
  | nil => cases h
  | cons u us ih =>
    rcases bind_error h with first | ⟨⟨y, front⟩, -, h⟩
    · exact (expand_error first).imp id fun unread => ⟨u, List.mem_cons_self, unread⟩
    · rcases bind_error h with rest | ⟨_, -, h⟩
      · exact (ih rest).imp id fun ⟨v, member, unread⟩ => ⟨v, List.mem_cons_of_mem _ member, unread⟩
      · cases h

/-- A pass fails on an exponent out of range or on a definition that cannot be read. -/
theorem pass_error (h : r.pass q = .error e) : e.IsOutOfRange ∨ ∃ u ∈ q.units, r.Unreadable e u.base := by
  unfold pass at h
  split at h
  · rename_i scale lone
    obtain ⟨u, units, -, -, affine⟩ := offsetScale?_ok lone
    rcases bind_error h with unread | ⟨_, -, tidied⟩
    · exact .inr ⟨u, by rw [units]; exact List.mem_singleton_self u, scale.metric, by rw [affine]; rfl, unread⟩
    · exact .inl (tidy_error tidied)
  · rcases bind_error h with expanded | ⟨_, -, tidied⟩
    · exact expandAll_error expanded
    · exact .inl (tidy_error tidied)

end Registry

end Metrology
