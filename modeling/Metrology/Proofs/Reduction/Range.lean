import Metrology.Proofs.Quantity.Load
import Metrology.Proofs.Reduction.Termination

/-!
When the exponents stay in range. The content of a unit in a symbol is how much of that symbol it can
come to at any stage of its expansion. Passes do not raise the content of a quantity, so where it is in
range at the start, no exponent ever leaves the range. Main statement: `reduce_of_contained`.
-/

namespace Metrology.Registry
open Outcome Quantity

variable {α : Type} [Scalar α] {r : Registry α} {q t : Quantity α} {b : BaseUnit α} {u : Factor α}
  {us vs : List (Factor α)} {x y : α} {s : String} {o : Except Error (Quantity α)} {n : Nat}

/-! ### Content -/

/-- How much of `s` a unit can come to within `n` definitions: its own symbol, or what its definition
comes to. -/
def contentWithin (r : Registry α) (s : String) : Nat → BaseUnit α → Nat
  | 0, b => single s b
  | n + 1, b =>
    match b.definition.metric? with
    | none => single s b
    | some metric =>
      match r.parse metric with
      | .ok q => max (single s b) (load (r.contentWithin s n) q.units)
      | .error _ => single s b

def content (r : Registry α) (s : String) (b : BaseUnit α) : Nat :=
  r.contentWithin s r.size b

theorem contentWithin_irreducible (irreducible : b.definition.metric? = none) :
    r.contentWithin s n b = single s b := by
  cases n with
  | zero => rfl
  | succ n => rw [contentWithin, irreducible]

theorem contentWithin_reducible {metric : String} (defined : b.definition.metric? = some metric)
    (parsed : r.parse metric = .ok q) :
    r.contentWithin s (n + 1) b = max (single s b) (load (r.contentWithin s n) q.units) := by
  rw [contentWithin, defined]
  simp only [parsed]

theorem contentWithin_step (n : Nat) (b : BaseUnit α)
    (settled : ∀ c, r.Depends b c → r.contentWithin s n c = r.contentWithin s (n + 1) c) :
    r.contentWithin s (n + 1) b = r.contentWithin s (n + 2) b := by
  cases defined : b.definition.metric? with
  | none => rw [contentWithin_irreducible defined, contentWithin_irreducible defined]
  | some metric =>
    cases parsed : r.parse metric with
    | error e => rw [contentWithin, contentWithin, defined]; simp only [parsed]
    | ok q =>
      rw [contentWithin_reducible defined parsed, contentWithin_reducible defined parsed]
      congr 1
      refine Nat.le_antisymm (load_mono ?_) (load_mono ?_)
      · exact fun w member => (settled _ (depends_of_parse defined parsed member)).le
      · exact fun w member => (settled _ (depends_of_parse defined parsed member)).ge

theorem single_le_contentWithin : single s b ≤ r.contentWithin s n b := by
  cases n with
  | zero => exact Nat.le_refl _
  | succ n =>
    unfold contentWithin
    split
    · exact Nat.le_refl _
    · split
      · exact Nat.le_max_left _ _
      · exact Nat.le_refl _

theorem single_le_content : single s b ≤ r.content s b :=
  single_le_contentWithin

/-- A unit contains at least what its definition contains. -/
theorem content_definition (indexed : r.Indexed) (acyclic : r.Acyclic) (member : b ∈ r.units) {metric : String}
    (defined : b.definition.metric? = some metric) (parsed : r.parse metric = .ok q) :
    load (r.content s) q.units ≤ r.content s b := by
  have settled : r.content s b = r.contentWithin s (r.size + 1) b :=
    stable_of_acyclic contentWithin_step indexed acyclic member
  rw [settled, contentWithin_reducible defined parsed]
  exact Nat.le_max_right _ _

/-! ### Passes do not raise the content -/

theorem load_expand (indexed : r.Indexed) (acyclic : r.Acyclic) (member : u.base ∈ r.units)
    (h : r.expand x u = .ok (y, vs)) : load (r.content s) vs ≤ u.exponent.val.natAbs * r.content s u.base := by
  rcases expand_ok h with ⟨-, -, rfl⟩ | ⟨metric, q, power, defined, parsed, raised, -, rfl⟩
  · exact load_singleton.le
  · have inside : r.Covers q.units := covers_parse indexed parsed
    have less : load (r.content s) power.units ≤ u.exponent.val.natAbs * load (r.content s) q.units :=
      load_pow (q := scaledDefinition u q) indexed.toNumbered inside raised
    exact less.trans (Nat.mul_le_mul_left _ (content_definition indexed acyclic member defined parsed))

theorem load_expandAll (indexed : r.Indexed) (acyclic : r.Acyclic) (covers : r.Covers us)
    (h : r.expandAll x us = .ok (y, vs)) : load (r.content s) vs ≤ load (r.content s) us := by
  induction us generalizing x vs with
  | nil =>
    cases h
    exact Nat.le_refl _
  | cons u us ih =>
    rw [covers_cons] at covers
    obtain ⟨z, front, back, first, rest, rfl⟩ := expandAll_cons_ok h
    rw [load_append, load_cons]
    exact Nat.add_le_add (load_expand indexed acyclic covers.1 first) (ih covers.2 rest)

theorem load_pass (indexed : r.Indexed) (acyclic : r.Acyclic) (covers : r.Covers q.units)
    (h : r.pass q = .ok t) : load (r.content s) t.units ≤ load (r.content s) q.units := by
  obtain ⟨x, y, us, expanded, tidied⟩ := expandAll_of_pass h
  have less : load (r.content s) t.units ≤ load (r.content s) us :=
    load_tidy (q := ⟨x, us⟩) indexed.toNumbered (covers_expandAll indexed covers expanded) tidied
  exact less.trans (load_expandAll indexed acyclic covers expanded)

/-! ### Passes of contained quantities succeed -/

/-- Every definition can be read. -/
def Complete (r : Registry α) : Prop :=
  ∀ u ∈ r.units, ∀ e, ¬r.Unreadable e u

theorem Complete.parse (complete : r.Complete) (member : b ∈ r.units) {metric : String}
    (defined : b.definition.metric? = some metric) : ∃ q, r.parse metric = .ok q := by
  cases parsed : r.parse metric with
  | error e => exact absurd ⟨metric, defined, parsed⟩ (complete b member e)
  | ok q => exact ⟨q, rfl⟩

/-- The content of the factors in each symbol is in range. -/
def Contained (r : Registry α) (us : List (Factor α)) : Prop :=
  ∀ s, load (r.content s) us ≤ Exponent.greatest

theorem Contained.fits (contained : r.Contained us) : Fits us :=
  fun s => (load_mono fun _ _ => single_le_content).trans (contained s)

theorem expand_of_contained (indexed : r.Indexed) (acyclic : r.Acyclic) (complete : r.Complete)
    (member : u.base ∈ r.units) (contained : r.Contained [u]) (x : α) : ∃ p, r.expand x u = .ok p := by
  cases defined : u.base.definition.metric? with
  | none => exact ⟨_, expand_irreducible defined⟩
  | some metric =>
    obtain ⟨q, parsed⟩ := complete.parse member defined
    -- the power of the definition has no more of any symbol than the factor contains
    have fits : ∀ s, u.exponent.val.natAbs * load (single s) q.units ≤ Exponent.greatest := by
      intro s
      have inside : load (single s) q.units ≤ r.content s u.base :=
        (load_mono fun _ _ => single_le_content).trans
          (content_definition indexed acyclic member defined parsed)
      have whole := contained s
      rw [load_singleton] at whole
      exact (Nat.mul_le_mul_left _ inside).trans whole
    have covers : r.Covers q.units := covers_parse indexed parsed
    obtain ⟨power, raised⟩ := pow_of_fits (q := scaledDefinition u q) indexed.toNumbered covers fits
    exact ⟨_, expand_reducible defined parsed raised⟩

theorem expandAll_of_contained (indexed : r.Indexed) (acyclic : r.Acyclic) (complete : r.Complete)
    (covers : r.Covers us) (contained : r.Contained us) (x : α) : ∃ p, r.expandAll x us = .ok p := by
  induction us generalizing x with
  | nil => exact ⟨_, rfl⟩
  | cons u us ih =>
    rw [covers_cons] at covers
    have first : r.Contained [u] := fun s =>
      (load_sublist (List.singleton_sublist.mpr List.mem_cons_self)).trans (contained s)
    have rest : r.Contained us := fun s => (load_sublist (List.sublist_cons_self u us)).trans (contained s)
    obtain ⟨⟨y, front⟩, expanded⟩ := expand_of_contained indexed acyclic complete covers.1 first x
    obtain ⟨⟨z, back⟩, others⟩ := ih covers.2 rest y
    exact ⟨_, expandAll_cons expanded others⟩

theorem pass_of_contained (indexed : r.Indexed) (acyclic : r.Acyclic) (complete : r.Complete)
    (covers : r.Covers q.units) (contained : r.Contained q.units) : ∃ t, r.pass q = .ok t := by
  obtain ⟨⟨y, us⟩, expanded⟩ := expandAll_of_contained indexed acyclic complete covers contained q.amount
  have after : r.Contained us := fun s => (load_expandAll indexed acyclic covers expanded).trans (contained s)
  obtain ⟨x, same⟩ := pass_of_expandAll expanded
  rw [same]
  exact tidy_of_fits (q := ⟨x, us⟩) indexed.toNumbered (covers_expandAll indexed covers expanded) after.fits

theorem run_of_contained (indexed : r.Indexed) (acyclic : r.Acyclic) (complete : r.Complete)
    (covers : r.Covers q.units) (contained : r.Contained q.units) (run : Run r n q o) : ∃ t, o = .ok t := by
  induction run with
  | done => exact ⟨_, rfl⟩
  | failed _ failed =>
    obtain ⟨t, passed⟩ := pass_of_contained indexed acyclic complete covers contained
    rw [failed] at passed
    cases passed
  | step _ passed _ ih =>
    exact ih (covers_pass indexed covers passed) fun s =>
      (load_pass indexed acyclic covers passed).trans (contained s)

/-- Reduction of a contained quantity succeeds, where the passes suffice. -/
theorem reduce_of_contained (indexed : r.Indexed) (acyclic : r.Acyclic) (complete : r.Complete)
    {level : BaseUnit α → Nat} (ranking : r.Ranking level) (bound : ∀ u ∈ q.units, rank level u ≤ maxPasses)
    (covers : r.Covers q.units) (contained : r.Contained q.units) : ∃ t, r.reduce q = .ok t := by
  obtain ⟨tidied, first⟩ := tidy_of_fits indexed.toNumbered covers contained.fits
  obtain ⟨n, short, o, run, reduces⟩ := reduce_ranked indexed ranking covers bound first
  have after : r.Contained tidied.units := fun s =>
    (load_tidy indexed.toNumbered covers first).trans (contained s)
  obtain ⟨t, rfl⟩ := run_of_contained indexed acyclic complete (tidy_covers covers first) after run
  exact ⟨_, by rw [reduces, if_pos short]; rfl⟩

end Metrology.Registry
