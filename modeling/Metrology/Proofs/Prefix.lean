import Mathlib.Data.List.Nodup
import Metrology.Proofs.Scalar.Rational
import Metrology.Registry.Builtin

/-!
The prefixes of the tables. A symbol stands for one prefix whichever table it is in, and exact
multipliers are not zero.
-/

namespace Metrology.Prefix

variable {α : Type} [Scalar α] {p p' : Prefix α}

def all : List (Prefix α) :=
  metric ++ binary ++ currency

def symbols : List String :=
  ["Q", "R", "Y", "Z", "E", "P", "T", "G", "M", "k", "h", "da", "d", "c", "m", "µ", "n", "p", "f", "a",
    "z", "y", "r", "q", "Ki", "Mi", "Gi", "Ti", "Pi", "Ei", "Zi", "Yi", "K", "B"]

theorem map_symbol_all : (all : List (Prefix α)).map (·.symbol) = symbols := rfl

theorem symbols_nodup : symbols.Nodup := by decide +kernel

theorem eq_of_symbol (hp : p ∈ all) (hp' : p' ∈ all) (same : p.symbol = p'.symbol) : p = p' := by
  refine List.inj_on_of_nodup_map ?_ hp hp' same
  rw [map_symbol_all]
  exact symbols_nodup

theorem eq_of_symbol? {p p' : Option (Prefix α)} (hp : ∀ x ∈ p, x ∈ all) (hp' : ∀ x ∈ p', x ∈ all)
    (same : p.map (·.symbol) = p'.map (·.symbol)) : p = p' := by
  cases p with
  | none =>
    cases p' with
    | none => rfl
    | some y => cases same
  | some x =>
    cases p' with
    | none => cases same
    | some y => rw [eq_of_symbol (hp x rfl) (hp' y rfl) (Option.some.inj same)]

theorem multiplier_ne_zero : ∀ p ∈ (all : List (Prefix Rat)), p.multiplier ≠ 0 := by decide +kernel

/-! ### The prefixes that units accept -/

theorem mem_of_named? {symbol : String} (h : named? symbol = some p) : p ∈ all :=
  List.mem_of_find?_eq_some h

theorem metric_subset : (metric : List (Prefix α)) ⊆ all := fun _ member =>
  List.mem_append_left _ (List.mem_append_left _ member)

theorem largeMetric_subset : (largeMetric : List (Prefix α)) ⊆ all := fun _ member =>
  metric_subset (List.mem_of_mem_filter member)

theorem binary_subset : (binary : List (Prefix α)) ⊆ all := fun _ member =>
  List.mem_append_left _ (List.mem_append_right _ member)

theorem among_subset (symbols : List String) : (among symbols : List (Prefix α)) ⊆ all := by
  intro p member
  obtain ⟨symbol, _, found⟩ := List.mem_filterMap.mp member
  exact mem_of_named? found

end Metrology.Prefix
