import Metrology.Proofs.Quantity.Worth
import Metrology.Proofs.Registry.Builtin

/-!
What a unit is worth in irreducible units. `scale_reducible` is the defining equation in an acyclic
registry. In a `Regular` registry no scale is zero and every definition has prefixes of the tables;
the exact built-in registry is regular.
-/

namespace Metrology.Registry
open Outcome Quantity

variable {r : Registry Rat} {u : BaseUnit Rat} {q : Quantity Rat} {text metric : String}

/-- The product of the slopes and prefixes down the definitions of a unit, read `n` deep. -/
def scaleWithin (r : Registry Rat) : Nat → BaseUnit Rat → Rat
  | 0, _ => 1
  | n + 1, u =>
    match u.definition.metric? with
    | none => 1
    | some metric =>
      match r.parse metric with
      | .ok q => u.definition.slope * valueBy (r.scaleWithin n) q
      | .error _ => 1

def scale (r : Registry Rat) (u : BaseUnit Rat) : Rat :=
  r.scaleWithin r.size u

/-- The amount times the scale of every factor. -/
def value (r : Registry Rat) (q : Quantity Rat) : Rat :=
  valueBy r.scale q

theorem scaleWithin_irreducible (n : Nat) (irreducible : u.definition.metric? = none) :
    r.scaleWithin n u = 1 := by
  cases n with
  | zero => rfl
  | succ n => rw [scaleWithin, irreducible]

theorem scaleWithin_reducible (n : Nat) (defined : u.definition.metric? = some metric)
    (parsed : r.parse metric = .ok q) :
    r.scaleWithin (n + 1) u = u.definition.slope * valueBy (r.scaleWithin n) q := by
  rw [scaleWithin, defined]
  simp only [parsed]

theorem scaleWithin_step (n : Nat) (u : BaseUnit Rat)
    (settled : ∀ v, r.Depends u v → r.scaleWithin n v = r.scaleWithin (n + 1) v) :
    r.scaleWithin (n + 1) u = r.scaleWithin (n + 2) u := by
  cases defined : u.definition.metric? with
  | none => rw [scaleWithin_irreducible _ defined, scaleWithin_irreducible _ defined]
  | some metric =>
    cases parsed : r.parse metric with
    | error e => rw [scaleWithin, scaleWithin, defined]; simp only [parsed]
    | ok q =>
      rw [scaleWithin_reducible _ defined parsed, scaleWithin_reducible _ defined parsed, valueBy, valueBy,
        worth_congr fun w member => settled _ (depends_of_parse defined parsed member)]

theorem scale_irreducible (irreducible : u.definition.metric? = none) : r.scale u = 1 :=
  scaleWithin_irreducible _ irreducible

theorem scale_reducible (indexed : r.Indexed) (acyclic : r.Acyclic) (member : u ∈ r.units)
    (defined : u.definition.metric? = some metric) (parsed : r.parse metric = .ok q) :
    r.scale u = u.definition.slope * r.value q := by
  rw [scale, stable_of_acyclic scaleWithin_step indexed acyclic member]
  exact scaleWithin_reducible _ defined parsed

/-! ### Regular registries -/

/-- Prefixes come from the tables, and nothing in a definition is zero. -/
structure Regular (r : Registry Rat) : Prop where
  tabled : ∀ u ∈ r.units, u.prefixes ⊆ Prefix.all
  slope : ∀ u ∈ r.units, u.definition.slope ≠ 0
  amount : ∀ u ∈ r.units, ∀ metric ∈ u.definition.metric?, ∀ q, r.parse metric = .ok q → q.amount ≠ 0

theorem sound_parse (indexed : r.Indexed) (regular : r.Regular) (h : r.parse text = .ok q) : Sound r q.units := by
  refine ⟨covers_parse indexed h, ?_⟩
  intro w member p chosen
  obtain ⟨s, _, reading, read, _, pre⟩ := parse_ok h member
  rw [indexed.getElem?_readings] at read
  obtain ⟨inside, accepted⟩ := mem_of_reading? read
  rcases pre with same | ⟨p', listed, same⟩
  · exact regular.tabled _ inside (accepted p (same ▸ chosen))
  · rw [same] at chosen
    exact regular.tabled _ inside (Option.some.inj chosen ▸ listed)

theorem scale_ne_zero (indexed : r.Indexed) (regular : r.Regular) (u : BaseUnit Rat) (member : u ∈ r.units) :
    r.scale u ≠ 0 := by
  suffices every : ∀ n, ∀ v ∈ r.units, r.scaleWithin n v ≠ 0 from every _ u member
  intro n
  induction n with
  | zero => exact fun _ _ => one_ne_zero
  | succ n ih =>
    intro v inside
    cases defined : v.definition.metric? with
    | none =>
      rw [scaleWithin_irreducible _ defined]
      exact one_ne_zero
    | some metric =>
      cases parsed : r.parse metric with
      | error e =>
        rw [scaleWithin, defined]
        simp only [parsed]
        exact one_ne_zero
      | ok q =>
        rw [scaleWithin_reducible _ defined parsed]
        exact mul_ne_zero (regular.slope v inside) (mul_ne_zero (regular.amount v inside metric defined q parsed)
          (worth_ne_zero ih (sound_parse indexed regular parsed)))

/-! ### The exact built-in registry -/

/-- Whether a text is a list of units without an amount. -/
def isUnitList (text : String) : Bool :=
  match Expression.scan? (Text.trim text.toList) with
  | some (.physical none _) => true
  | _ => false

theorem amount_of_isUnitList (units : isUnitList text = true) (h : r.parse text = .ok q) : q.amount = 1 := by
  unfold isUnitList at units
  split at units
  · rename_i tokens scanned
    simp only [parse, scanned] at h
    obtain ⟨x, read, h⟩ := bind_ok h
    obtain ⟨us, _, h⟩ := bind_ok h
    obtain rfl : Scalar.one = x := Except.ok.inj read
    rw [pure_ok h, Scalar.one_eq]
  · cases units

theorem Builtin.slope_ne_zero : ∀ u ∈ (Builtin.units : List (BaseUnit Rat)), u.definition.slope ≠ 0 := by
  decide +kernel

theorem Builtin.metrics_are_unitLists :
    ∀ u ∈ (Builtin.units : List (BaseUnit Rat)), ∀ metric ∈ u.definition.metric?, isUnitList metric = true := by
  decide +kernel

theorem exact_regular : exact.Regular := by
  have table : ∀ u ∈ exact.units, ∃ v ∈ (Builtin.units : List (BaseUnit Rat)), v.definition = u.definition := by
    intro u member
    rw [builtin_units] at member
    obtain ⟨v, listed, same⟩ := exists_of_mem_numbered member
    exact ⟨v, listed, by rw [same]⟩
  refine ⟨fun u member => builtin_prefixes member, ?_, ?_⟩
  · intro u member
    obtain ⟨v, listed, same⟩ := table u member
    exact same ▸ Builtin.slope_ne_zero v listed
  · intro u member metric defined q parsed
    obtain ⟨v, listed, same⟩ := table u member
    rw [amount_of_isUnitList (Builtin.metrics_are_unitLists v listed metric (same ▸ defined)) parsed]
    exact one_ne_zero

end Metrology.Registry
