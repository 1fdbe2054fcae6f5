import Mathlib.Algebra.BigOperators.Ring.List
import Metrology.Proofs.Reduction.Range
import Metrology.Proofs.Registry.Builtin

/-!
Reduction over the built-in units. Every definition of the table can be read, it lists irreducible units
or passes on to one other unit, and none is more than three definitions deep. So three passes are enough,
and a unit contains each symbol four times at most. Main statement: `reduce_passes`.
-/

namespace Metrology.Registry
open Outcome Quantity

variable {α : Type} [Scalar α] {r : Registry α} {us : List (Factor α)} {s : String} {n : Nat}

/-! ### Simple definitions -/

/-- A definition passes on to one other unit, or it lists distinct irreducible units with exponents up to
the fourth. -/
def Simple (us : List (Factor α)) : Prop :=
  (us.length = 1 ∧ ∀ u ∈ us, u.exponent.val.natAbs = 1) ∨
    ((us.map (·.base.symbol)).Nodup ∧ ∀ u ∈ us, u.base.isReducible = false ∧ u.exponent.val.natAbs ≤ 4)

instance (us : List (Factor α)) : Decidable (Simple us) := by
  unfold Simple
  infer_instance

theorem load_simple (simple : Simple us) (contents : ∀ u ∈ us, r.contentWithin s n u.base ≤ 4) :
    load (r.contentWithin s n) us ≤ 4 := by
  rcases simple with ⟨lone, first⟩ | ⟨distinct, listed⟩
  · -- what is passed on is the content of the other unit
    obtain ⟨u, rfl⟩ := List.length_eq_one_iff.mp lone
    rw [List.forall_mem_singleton] at first contents
    rw [load_singleton, first, Nat.one_mul]
    exact contents
  · -- irreducible units contain themselves only, and each is listed once
    refine (load_mono ?_).trans (load_single_le (s := s) distinct fun u member => (listed u member).2)
    intro u member
    exact (contentWithin_irreducible (BaseUnit.isReducible_eq_false.mp (listed u member).1)).le

/-- Where definitions are simple, a unit contains no symbol more than four times. -/
theorem contentWithin_le (indexed : r.Indexed)
    (simple : ∀ b ∈ r.units, ∀ metric ∈ b.definition.metric?, ∀ q, r.parse metric = .ok q → Simple q.units)
    (n : Nat) : ∀ b ∈ r.units, r.contentWithin s n b ≤ 4 := by
  induction n with
  | zero => exact fun b _ => (single_le_one s b).trans (by decide)
  | succ n ih =>
    intro b member
    have own : single s b ≤ 4 := (single_le_one s b).trans (by decide)
    cases defined : b.definition.metric? with
    | none => rwa [contentWithin_irreducible defined]
    | some metric =>
      cases parsed : r.parse metric with
      | error e =>
        rw [contentWithin, defined]
        simp only [parsed]
        exact own
      | ok q =>
        rw [contentWithin_reducible defined parsed]
        have inside : r.Covers q.units := covers_parse indexed parsed
        exact Nat.max_le.mpr ⟨own, load_simple (simple b member metric defined q parsed) fun u present =>
          ih u.base (inside u present)⟩

/-! ### The built-in definitions -/

namespace Builtin

/-- The units that are defined through a unit with a definition of its own. -/
def layered : List String :=
  ["eV", "cal", "bar", "atm", "pt", "qt", "gal", "lbf", "psi", "USpt", "USqt", "USgal"]

def level (b : BaseUnit α) : Nat :=
  if b.symbol ∈ layered then 3 else 2

/-- Every definition can be read, is simple and ranks below its unit. -/
def Shallow (units : List (BaseUnit α)) : Prop :=
  ∀ b ∈ units, ∀ metric ∈ b.definition.metric?,
    ∃ us ∈ factors? units metric, Simple us ∧ ∀ u ∈ us, rank level u < level b

instance (units : List (BaseUnit α)) : Decidable (Shallow units) := by
  unfold Shallow
  infer_instance

theorem shallow_numbered : Shallow (numbered (units : List (BaseUnit Float))) := by
  decide +kernel

end Builtin

theorem standard_definition {b : BaseUnit Float} (member : b ∈ standard.units) {metric : String}
    (defined : b.definition.metric? = some metric) :
    ∃ us, standard.parse metric = .ok ⟨Scalar.one, us⟩ ∧ Simple us ∧
      ∀ u ∈ us, rank Builtin.level u < Builtin.level b := by
  have units : standard.units = numbered Builtin.units := builtin_units
  rw [units] at member
  obtain ⟨us, found, checked⟩ := Builtin.shallow_numbered b member metric defined
  rw [← units] at found
  exact ⟨us, parse_of_factors? standard_indexed found, checked⟩

theorem standard_complete : standard.Complete := by
  rintro b member e ⟨metric, defined, failed⟩
  obtain ⟨us, parsed, -⟩ := standard_definition member defined
  rw [parsed] at failed
  cases failed

theorem standard_ranking : standard.Ranking Builtin.level := by
  intro b member metric defined
  obtain ⟨us, parsed, -, below⟩ := standard_definition member defined
  rw [parsed]
  exact below

theorem standard_content_le {b : BaseUnit Float} (member : b ∈ standard.units) : standard.content s b ≤ 4 := by
  refine contentWithin_le standard_indexed ?_ _ b member
  intro b member metric defined q parsed
  obtain ⟨us, parsed', simple, -⟩ := standard_definition member defined
  rw [parsed] at parsed'
  cases parsed'
  exact simple

omit [Scalar α] in
theorem rank_level_le (u : Factor α) : rank Builtin.level u ≤ 3 := by
  unfold rank Builtin.level
  split_ifs <;> decide

/-- Over the built-in units, exponents of this magnitude in all stay in range. -/
theorem standard_contained {q : Quantity Float} (covers : standard.Covers q.units)
    (small : (q.units.map (·.exponent.val.natAbs)).sum ≤ 2 ^ 29 - 1) : standard.Contained q.units := by
  intro s
  have bounded : load (standard.content s) q.units ≤ load (fun _ => 4) q.units :=
    load_mono fun u member => standard_content_le (covers u member)
  have total : load (fun _ => 4) q.units = (q.units.map (·.exponent.val.natAbs)).sum * 4 :=
    List.sum_map_mul_right _ _ _
  refine bounded.trans (total.trans_le ((Nat.mul_le_mul_right 4 small).trans ?_))
  decide

/-- Exponents of this magnitude in all do not keep a quantity from being reduced. -/
theorem standard_reduce_of_small {q : Quantity Float} (covers : standard.Covers q.units)
    (small : (q.units.map (·.exponent.val.natAbs)).sum ≤ 2 ^ 29 - 1) : ∃ t, standard.reduce q = .ok t := by
  have within : ∀ u ∈ q.units, rank Builtin.level u ≤ maxPasses := fun u _ => (rank_level_le u).trans (by decide)
  exact reduce_of_contained standard_indexed standard_acyclic standard_complete standard_ranking within covers
    (standard_contained covers small)

/-- Reduction ends without the limit on its passes. In any registry, for any ranks, it begins no more
passes than the largest rank of its factors, and with ranks up to the limit the passes are never used up.
Over the built-in units three passes are enough for any quantity, the only error is an exponent out of
range, and there is none where the exponents come to less than `2 ^ 29` in all. -/
theorem reduce_passes {r : Registry Float} (reachable : r.Reachable) {level : BaseUnit Float → Nat}
    (ranking : r.Ranking level) {q : Quantity Float} (covers : r.Covers q.units) {m : Nat}
    (bound : ∀ u ∈ q.units, rank level u ≤ m) {p : Quantity Float} (covers' : standard.Covers p.units) :
    (∀ t, q.tidy = .ok t → ∃ n ≤ m, ∃ o, Run r n t o ∧
        r.reduce q = if n ≤ maxPasses then restoreKilogram <$> o else .error (.notReduced q.nice maxPasses)) ∧
      (m ≤ maxPasses → ∀ e, r.reduce q = .error e → ¬e.IsNotReduced) ∧
      (∀ t, p.tidy = .ok t →
        ∃ n ≤ 3, ∃ o, Run standard n t o ∧ standard.reduce p = restoreKilogram <$> o) ∧
      (∀ e, standard.reduce p = .error e → ∃ unit, e = .exponentOutOfRange unit) ∧
      ((p.units.map (·.exponent.val.natAbs)).sum ≤ 2 ^ 29 - 1 → ∃ t, standard.reduce p = .ok t) := by
  have indexed := reachable.indexed
  have low : ∀ u ∈ p.units, rank Builtin.level u ≤ 3 := fun u _ => rank_level_le u
  have within : ∀ u ∈ p.units, rank Builtin.level u ≤ maxPasses := fun u member =>
    (low u member).trans (by decide)
  refine ⟨fun t tidied => reduce_ranked indexed ranking covers bound tidied, ?_, ?_, ?_, ?_⟩
  · intro limit e failed
    rcases reduce_error indexed ranking covers (fun u member => (bound u member).trans limit) failed with
      range | ⟨b, -, unread⟩
    · exact range.reduced
    · exact unread.reduced
  · intro t tidied
    obtain ⟨n, short, o, run, reduces⟩ := reduce_ranked standard_indexed standard_ranking covers' low tidied
    exact ⟨n, short, o, run, by rw [reduces, if_pos (short.trans (by decide))]⟩
  · intro e failed
    rcases reduce_error standard_indexed standard_ranking covers' within failed with range | ⟨b, member, unread⟩
    · exact range
    · exact absurd unread (standard_complete b member e)
  · intro small
    exact reduce_of_contained standard_indexed standard_acyclic standard_complete standard_ranking within covers'
      (standard_contained covers' small)

/-- `2 keV²`, three definitions deep -/
def energySquared : Quantity Float :=
  ⟨2, [⟨{ Builtin.linear "eV" "electron volt" 1.602176634e-19 "J" Builtin.metric with order := 41 },
    Prefix.named? "k", .squared⟩]⟩

theorem energySquared_covers : standard.Covers energySquared.units := by
  have units : standard.units = numbered Builtin.units := builtin_units
  rw [energySquared, covers_singleton, units]
  exact mem_numbered (i := 40) rfl

theorem reduce_passes_energySquared :
    (∀ u ∈ energySquared.units, rank Builtin.level u ≤ 3) ∧
      (∃ t n o, energySquared.tidy = .ok t ∧ n ≤ 3 ∧ Run standard n t o ∧
        standard.reduce energySquared = restoreKilogram <$> o) ∧
      ∃ t, standard.reduce energySquared = .ok t := by
  have low : ∀ u ∈ energySquared.units, rank Builtin.level u ≤ 3 := fun u _ => rank_level_le u
  obtain ⟨-, -, passes, -, contained⟩ :=
    reduce_passes builtin_reachable standard_ranking energySquared_covers low energySquared_covers
  obtain ⟨t, tidied⟩ := isOk_iff.mp (show energySquared.tidy.isOk = true by decide +kernel)
  obtain ⟨n, short, o, run, reduces⟩ := passes t tidied
  exact ⟨low, ⟨t, n, o, tidied, short, run, reduces⟩, contained (by decide)⟩

end Metrology.Registry
