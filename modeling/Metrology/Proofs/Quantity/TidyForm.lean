import Metrology.Proofs.Quantity.Totals
import Metrology.Proofs.Quantity.Worth
import Metrology.Proofs.Reduction.Canonical
import Metrology.Proofs.Scalar.Product

/-!
What tidying comes to, read off the list as it was written: one factor for each base whose total exponent
is not zero, with that total and with the prefix that all factors of the base have in common. The amount
takes the prefixes of the bases that have several. Tidying succeeds exactly when no partial sum of
exponents leaves their range, and one that fails in the middle of the list has changed nothing.
-/

namespace Metrology.Quantity
open Outcome Registry

variable {α : Type} {us vs ws : List (Factor α)} {u v w : Factor α} {x : String}

/-! ### Common prefixes -/

/-- Factors with the base symbol `x` differ in their prefixes. -/
def Mixed (us : List (Factor α)) (x : String) : Prop :=
  ∃ u ∈ us, ∃ v ∈ us, u.base.symbol = x ∧ v.base.symbol = x ∧ u.prefixSymbol? ≠ v.prefixSymbol?

instance : Decidable (Mixed us x) :=
  inferInstanceAs (Decidable (∃ u ∈ us, ∃ v ∈ us, _))

theorem Mixed.append (mixed : Mixed us x) : Mixed (us ++ vs) x := by
  obtain ⟨u, hu, v, hv, rest⟩ := mixed
  exact ⟨u, List.mem_append_left vs hu, v, List.mem_append_left vs hv, rest⟩

variable [Scalar α] {r : Registry α} {q t : Quantity α} {y z : α}

section Exact

variable {e : Registry Rat} {p s : Quantity Rat} {us vs : List (Factor Rat)} {u v : Factor Rat}

end Exact

/-! ### Tidying as a whole -/

/-- `x km²·mg/hm/m`, where the metres cancel. -/
def cancelledMetres (x : α) : Quantity α :=
  ⟨x, [⟨Builtin.metre, Prefix.named? "k", .squared⟩, ⟨Builtin.gram, Prefix.named? "m", 1⟩,
    ⟨Builtin.metre, Prefix.named? "h", .reciprocal⟩, ⟨Builtin.metre, none, .reciprocal⟩]⟩

end Metrology.Quantity
