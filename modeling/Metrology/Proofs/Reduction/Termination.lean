import Metrology.Proofs.Expression.Scanner
import Metrology.Proofs.Reduction.Failure

/-!
How many passes reduction takes. `Run` counts them. A `Ranking` gives every unit a level above the ranks
of its definition; a pass over factors of rank at most `n + 1` leaves factors of rank at most `n`, whatever
is merged or cancelled on the way, so the largest rank bounds the number of passes. Main statements:
`reduce_ranked` and `reduce_error`.
-/

namespace Metrology

variable {α : Type}

def Quantity.IsCanonical (q : Quantity α) : Prop :=
  ∀ u ∈ q.units, u.isCanonical = true

namespace Registry
open Outcome Quantity

variable [Scalar α] {r : Registry α} {q t start : Quantity α} {u v w : Factor α}
  {us vs : List (Factor α)} {x y : α} {o : Except Error (Quantity α)} {e : Error} {n m : Nat}

/-! ### Runs of passes -/

/-- From `q` reduction begins `n` passes and comes to the outcome `o`, if there is no limit. -/
inductive Run (r : Registry α) : Nat → Quantity α → Except Error (Quantity α) → Prop where
  | done {q : Quantity α} : IsCanonical q → Run r 0 q (.ok q)
  | failed {q : Quantity α} {e : Error} : ¬IsCanonical q → r.pass q = .error e → Run r 1 q (.error e)
  | step {q t : Quantity α} {n : Nat} {o : Except Error (Quantity α)} : ¬IsCanonical q → r.pass q = .ok t →
      Run r n t o → Run r (n + 1) q o

theorem passes_unfinished (unfinished : ¬IsCanonical q) (n : Nat) :
    r.passes start (n + 1) q = r.pass q >>= r.passes start n := by
  have reducible : ¬q.units.all Factor.isCanonical = true := fun all => unfinished (List.all_eq_true.mp all)
  rw [passes, if_neg reducible]

theorem passes_zero (unfinished : ¬IsCanonical q) :
    r.passes start 0 q = .error (.notReduced start.nice maxPasses) := by
  have reducible : ¬q.units.all Factor.isCanonical = true := fun all => unfinished (List.all_eq_true.mp all)
  rw [passes, if_neg reducible]

/-- A limit on the passes shows only where the run is longer. -/
theorem passes_of_run (run : Run r n q o) (limit : Nat) :
    r.passes start limit q = if n ≤ limit then o else .error (.notReduced start.nice maxPasses) := by
  induction run generalizing limit with
  | done canonical =>
    rw [passes_of_canonical canonical, if_pos (Nat.zero_le limit)]
  | failed unfinished failed =>
    cases limit with
    | zero => exact passes_zero unfinished
    | succ limit =>
      rw [passes_unfinished unfinished, failed, if_pos (Nat.le_add_left 1 limit)]
      rfl
  | step unfinished passed _ ih =>
    cases limit with
    | zero => exact passes_zero unfinished
    | succ limit =>
      rw [passes_unfinished unfinished, passed]
      simp only [Nat.add_le_add_iff_right]
      exact ih limit

/-- Reduction comes to the outcome of its run, unless that takes more passes than the limit. -/
theorem reduce_of_run (tidied : q.tidy = .ok t) (run : Run r n t o) :
    r.reduce q = if n ≤ maxPasses then restoreKilogram <$> o else .error (.notReduced q.nice maxPasses) := by
  rw [reduce, tidied]
  show (r.passes q maxPasses t >>= fun reduced => .ok (restoreKilogram reduced)) = _
  rw [passes_of_run run]
  by_cases short : n ≤ maxPasses
  · rw [if_pos short, if_pos short]
    rfl
  · rw [if_neg short, if_neg short]
    rfl

/-- A run fails as its last pass does. -/
theorem run_error (indexed : r.Indexed) (covers : r.Covers q.units) (run : Run r n q (.error e)) :
    e.IsOutOfRange ∨ ∃ u ∈ r.units, r.Unreadable e u := by
  generalize outcome : Except.error e = o at run
  induction run with
  | done => cases outcome
  | failed _ failed =>
    cases outcome
    exact (pass_error failed).imp id fun ⟨u, member, unread⟩ => ⟨u.base, covers u member, unread⟩
  | step _ passed _ ih => exact ih (covers_pass indexed covers passed) outcome

/-! ### Ranks -/

/-- The rank of a factor, whatever its exponent: the level of a reducible unit, whatever its prefix, and
of the irreducible ones, one for those with a prefix. -/
def rank (level : BaseUnit α → Nat) (u : Factor α) : Nat :=
  if u.base.isReducible then level u.base else if u.pre.isSome then 1 else 0

/-- Every unit has a level above the ranks in its definition. A definition that cannot be read counts as
one of rank zero, for a pass is begun that fails on it. -/
def Ranking (r : Registry α) (level : BaseUnit α → Nat) : Prop :=
  ∀ u ∈ r.units, ∀ metric ∈ u.definition.metric?,
    match r.parse metric with
    | .ok q => ∀ w ∈ q.units, rank level w < level u
    | .error _ => 0 < level u

section Ranks

variable {level : BaseUnit α → Nat}

omit [Scalar α] in
theorem rank_reducible {metric : String} (defined : u.base.definition.metric? = some metric) :
    rank level u = level u.base := by
  have reducible : u.base.isReducible = true := by
    rw [← Bool.not_eq_false, BaseUnit.isReducible_eq_false, defined]
    exact nofun
  rw [rank, if_pos reducible]

omit [Scalar α] in
/-- A factor that has its base and perhaps its prefix from another ranks no higher. -/
theorem rank_le_of_origin (base : w.base = v.base) (pre : ∀ p ∈ w.pre, p ∈ v.pre) : rank level w ≤ rank level v := by
  unfold rank
  rw [base]
  split
  · exact Nat.le_refl _
  · cases chosen : w.pre with
    | none => exact Nat.zero_le _
    | some p =>
      have same : v.pre = some p := pre p chosen
      rw [same]

theorem rank_of_definition (ranking : r.Ranking level) (member : u.base ∈ r.units) {metric : String}
    (defined : u.base.definition.metric? = some metric) (parsed : r.parse metric = .ok q) (origin : w ∈ q.units) :
    rank level w < rank level u := by
  have below := ranking u.base member metric defined
  rw [parsed] at below
  rw [rank_reducible defined]
  exact below w origin

/-- A text that is read names a unit. -/
theorem exists_mem_of_parse {text : String} (h : r.parse text = .ok q) : ∃ w, w ∈ q.units := by
  unfold parse at h
  generalize Text.trim text.toList = cs at h
  dsimp only at h
  split at h
  · rename_i expression scanned
    cases Expression.scan?_eq_some_iff.mp scanned with
    | money derived =>
      cases derived
      obtain ⟨_, _, h⟩ := bind_ok h
      obtain ⟨currency, _, h⟩ := bind_ok h
      obtain ⟨_, _, h⟩ := bind_ok h
      rw [pure_ok h]
      exact ⟨currency, List.mem_cons_self⟩
    | physical derived _ =>
      cases derived
      obtain ⟨_, _, h⟩ := bind_ok h
      obtain ⟨units, resolved, h⟩ := bind_ok h
      rw [pure_ok h]
      rw [List.mapM_cons] at resolved
      obtain ⟨w, _, resolved⟩ := bind_ok resolved
      obtain ⟨rest, _, resolved⟩ := bind_ok resolved
      rw [pure_ok resolved]
      exact ⟨w, List.mem_cons_self⟩
  · cases h

theorem canonical_of_rank_zero (ranking : r.Ranking level) (member : u.base ∈ r.units) (zero : rank level u = 0) :
    u.isCanonical = true := by
  rw [Factor.isCanonical_iff]
  cases defined : u.base.definition.metric? with
  | none =>
    refine ⟨rfl, ?_⟩
    rw [rank, BaseUnit.isReducible_eq_false.mpr defined] at zero
    cases chosen : u.pre with
    | none => rfl
    | some p => simp [chosen] at zero
  | some metric =>
    have below := ranking u.base member metric defined
    rw [rank_reducible defined] at zero
    cases parsed : r.parse metric with
    | error e => simp [parsed, zero] at below
    | ok q =>
      -- a definition names a unit, which would rank below zero
      obtain ⟨w, present⟩ := exists_mem_of_parse parsed
      simp only [parsed, zero] at below
      exact absurd (below w present) (Nat.not_lt_zero _)

/-! ### A pass lowers the ranks -/

theorem rank_expand (ranking : r.Ranking level) (member : u.base ∈ r.units) (bound : rank level u ≤ n + 1)
    (h : r.expand x u = .ok (y, vs)) : ∀ w ∈ vs, rank level w ≤ n := by
  rcases expand_ok h with ⟨irreducible, -, rfl⟩ | ⟨metric, q, power, defined, parsed, raised, -, rfl⟩
  · rw [List.forall_mem_singleton, rank, BaseUnit.isReducible_eq_false.mpr irreducible]
    exact Nat.zero_le n
  · intro w present
    obtain ⟨v, origin, base, pre⟩ := pow_origin (q := scaledDefinition u q) raised present
    have below : rank level v < rank level u := rank_of_definition ranking member defined parsed origin
    exact (rank_le_of_origin base pre).trans (Nat.le_of_lt_succ (below.trans_le bound))

theorem rank_expandAll (ranking : r.Ranking level) (covers : r.Covers us)
    (bound : ∀ u ∈ us, rank level u ≤ n + 1) (h : r.expandAll x us = .ok (y, vs)) :
    ∀ w ∈ vs, rank level w ≤ n := by
  induction us generalizing x vs with
  | nil =>
    cases h
    simp
  | cons u us ih =>
    rw [covers_cons] at covers
    rw [List.forall_mem_cons] at bound
    obtain ⟨z, front, back, first, rest, rfl⟩ := expandAll_cons_ok h
    exact List.forall_mem_append.mpr ⟨rank_expand ranking covers.1 bound.1 first, ih covers.2 bound.2 rest⟩

theorem rank_tidy (bound : ∀ u ∈ q.units, rank level u ≤ n) (h : q.tidy = .ok t) :
    ∀ w ∈ t.units, rank level w ≤ n := by
  intro w member
  obtain ⟨v, origin, base, pre⟩ := tidy_origin h member
  exact (rank_le_of_origin base pre).trans (bound v origin)

theorem rank_pass (ranking : r.Ranking level) (covers : r.Covers q.units)
    (bound : ∀ u ∈ q.units, rank level u ≤ n + 1) (h : r.pass q = .ok t) : ∀ w ∈ t.units, rank level w ≤ n := by
  obtain ⟨x, y, us, expanded, tidied⟩ := expandAll_of_pass h
  exact rank_tidy (q := ⟨x, us⟩) (rank_expandAll ranking covers bound expanded) tidied

/-- The passes end, and no more are begun than the largest rank. -/
theorem exists_run (indexed : r.Indexed) (ranking : r.Ranking level) (covers : r.Covers q.units)
    (bound : ∀ u ∈ q.units, rank level u ≤ m) : ∃ n ≤ m, ∃ o, Run r n q o := by
  -- each pass brings the largest rank down, however many factors it leaves
  induction m generalizing q with
  | zero =>
    have canonical : IsCanonical q := fun u member =>
      canonical_of_rank_zero ranking (covers u member) (Nat.le_zero.mp (bound u member))
    exact ⟨0, Nat.le_refl 0, _, .done canonical⟩
  | succ m ih =>
    by_cases canonical : IsCanonical q
    · exact ⟨0, Nat.zero_le _, _, .done canonical⟩
    · cases passed : r.pass q with
      | error e => exact ⟨1, Nat.le_add_left 1 m, _, .failed canonical passed⟩
      | ok t =>
        obtain ⟨n, short, o, run⟩ := ih (covers_pass indexed covers passed) (rank_pass ranking covers bound passed)
        exact ⟨n + 1, Nat.succ_le_succ short, o, .step canonical passed run⟩

/-- In a ranked registry reduction begins no more passes than the largest rank of its factors. -/
theorem reduce_ranked (indexed : r.Indexed) (ranking : r.Ranking level) (covers : r.Covers q.units)
    (bound : ∀ u ∈ q.units, rank level u ≤ m) (tidied : q.tidy = .ok t) :
    ∃ n ≤ m, ∃ o, Run r n t o ∧
      r.reduce q = if n ≤ maxPasses then restoreKilogram <$> o else .error (.notReduced q.nice maxPasses) := by
  obtain ⟨n, short, o, run⟩ := exists_run indexed ranking (tidy_covers covers tidied) (rank_tidy bound tidied)
  exact ⟨n, short, o, run, reduce_of_run tidied run⟩

/-- Where no rank is above the limit, reduction fails on an exponent out of range or on a definition. -/
theorem reduce_error (indexed : r.Indexed) (ranking : r.Ranking level) (covers : r.Covers q.units)
    (bound : ∀ u ∈ q.units, rank level u ≤ maxPasses) (h : r.reduce q = .error e) :
    e.IsOutOfRange ∨ ∃ u ∈ r.units, r.Unreadable e u := by
  cases tidied : q.tidy with
  | error e' =>
    rw [reduce, tidied] at h
    exact .inl (tidy_error (tidied.trans h))
  | ok t =>
    obtain ⟨n, short, o, run, reduces⟩ := reduce_ranked indexed ranking covers bound tidied
    rw [reduces, if_pos short] at h
    cases o with
    | ok reduced => cases h
    | error e' =>
      cases h
      exact run_error indexed (tidy_covers covers tidied) run

end Ranks

end Registry

end Metrology
