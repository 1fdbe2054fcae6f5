import Metrology.Proofs.Reduction.Passes
import Metrology.Proofs.Registry.Builtin

/-!
A built-in scale with an offset that stands alone reduces in one pass to kelvins, with its offset.
-/

namespace Metrology.Registry
open Outcome Quantity

variable {α : Type} [Scalar α] {q t : Quantity α} {scale : OffsetScale α} {x : α}

theorem kelvin_canonical : ∀ u ∈ [(⟨Builtin.kelvin, none, 1⟩ : Factor α)], u.isCanonical = true := by
  rw [List.forall_mem_singleton]
  rfl

theorem restoreKilogram_kelvin :
    restoreKilogram (⟨x, [⟨Builtin.kelvin, none, 1⟩]⟩ : Quantity α) = ⟨x, [⟨Builtin.kelvin, none, 1⟩]⟩ := by
  have other : ¬isGram (⟨Builtin.kelvin, none, 1⟩ : Factor α) = true := by
    intro gram
    have symbol : "K" = "g" := (isGram_iff.mp gram).1
    exact absurd symbol (by decide)
  rw [restoreKilogram, List.find?_cons_of_neg other, List.find?_nil]

theorem pass_lone (covers : (builtin α).Covers t.units) (lone : t.offsetScale? = some scale) :
    (builtin α).pass t = .ok ⟨scale.toMetric t.amount * Scalar.one, [⟨Builtin.kelvin, none, 1⟩]⟩ := by
  obtain ⟨u, units, -, -, affine⟩ := offsetScale?_ok lone
  have member : u.base ∈ (builtin α).units := covers_singleton.mp (units ▸ covers)
  have parsed : (builtin α).parse scale.metric = .ok ⟨Scalar.one, [⟨Builtin.kelvin, none, 1⟩]⟩ := by
    rw [builtin_affine_metric member affine]
    exact builtin_parse_kelvin
  rw [pass_offset lone parsed]
  exact tidy_of_tidy (tidy_singleton one_ne_zero)

theorem reduce_lone (covers : (builtin α).Covers q.units) (tidied : q.tidy = .ok t)
    (lone : t.offsetScale? = some scale) :
    (builtin α).reduce q = .ok ⟨scale.toMetric t.amount * Scalar.one, [⟨Builtin.kelvin, none, 1⟩]⟩ := by
  obtain ⟨u, units, -, -, affine⟩ := offsetScale?_ok lone
  have unfinished : u.isCanonical = false := by
    rw [← Bool.not_eq_true, Factor.isCanonical_iff, affine]
    exact fun canonical => nomatch canonical.1
  have passed := pass_lone (tidy_covers covers tidied) lone
  rw [reduce_of_pass tidied (by rw [units]; exact List.mem_singleton_self u) unfinished passed kelvin_canonical,
    restoreKilogram_kelvin]

end Metrology.Registry
