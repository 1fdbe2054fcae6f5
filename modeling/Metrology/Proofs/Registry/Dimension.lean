import Mathlib.Algebra.Group.Pi.Basic
import Metrology.Proofs.Quantity.Weight
import Metrology.Proofs.Registry.Definition

/-!
The dimension of a unit: the integer exponent of every irreducible symbol that its definition comes
to. `dimension_reducible` is the defining equation, which holds in every acyclic registry.
-/

namespace Metrology

/-- An exponent for every symbol. -/
abbrev Dimension := String → Int

namespace Registry
open Quantity

variable {α : Type} [Scalar α] {r : Registry α} {u : BaseUnit α} {q : Quantity α}

/-- The dimension of a unit, read `n` definitions deep. -/
def dimensionWithin (r : Registry α) : Nat → BaseUnit α → Dimension
  | 0, _ => 0
  | n + 1, u =>
    match u.definition.metric? with
    | none => Pi.single u.symbol 1
    | some metric =>
      match r.parse metric with
      | .ok q => weigh (r.dimensionWithin n) q.units
      | .error _ => 0

def dimension (r : Registry α) (u : BaseUnit α) : Dimension :=
  r.dimensionWithin r.size u

/-- The dimension of a quantity: those of its units, each times its exponent. -/
def dimensionOf (r : Registry α) (q : Quantity α) : Dimension :=
  weigh r.dimension q.units

theorem dimensionWithin_irreducible (n : Nat) (irreducible : u.definition.metric? = none) :
    r.dimensionWithin (n + 1) u = Pi.single u.symbol 1 := by
  rw [dimensionWithin, irreducible]

theorem dimensionWithin_reducible {metric : String} (n : Nat) (defined : u.definition.metric? = some metric)
    (parsed : r.parse metric = .ok q) :
    r.dimensionWithin (n + 1) u = weigh (r.dimensionWithin n) q.units := by
  rw [dimensionWithin, defined]
  simp only [parsed]

theorem dimensionWithin_step (n : Nat) (u : BaseUnit α)
    (settled : ∀ v, r.Depends u v → r.dimensionWithin n v = r.dimensionWithin (n + 1) v) :
    r.dimensionWithin (n + 1) u = r.dimensionWithin (n + 2) u := by
  cases defined : u.definition.metric? with
  | none => rw [dimensionWithin_irreducible _ defined, dimensionWithin_irreducible _ defined]
  | some metric =>
    cases parsed : r.parse metric with
    | error e => rw [dimensionWithin, dimensionWithin, defined]; simp only [parsed]
    | ok q =>
      rw [dimensionWithin_reducible _ defined parsed, dimensionWithin_reducible _ defined parsed]
      exact weigh_congr fun w member => settled _ (depends_of_parse defined parsed member)

theorem dimension_irreducible (member : u ∈ r.units) (irreducible : u.definition.metric? = none) :
    r.dimension u = Pi.single u.symbol 1 := by
  obtain ⟨n, size⟩ : ∃ n, r.size = n + 1 := Nat.exists_eq_add_one.mpr (List.length_pos_of_mem member)
  rw [dimension, size, dimensionWithin_irreducible _ irreducible]

theorem dimension_reducible {metric : String} (indexed : r.Indexed) (acyclic : r.Acyclic)
    (member : u ∈ r.units) (defined : u.definition.metric? = some metric)
    (parsed : r.parse metric = .ok q) : r.dimension u = r.dimensionOf q := by
  rw [dimension, stable_of_acyclic dimensionWithin_step indexed acyclic member]
  exact dimensionWithin_reducible _ defined parsed

end Registry

end Metrology
