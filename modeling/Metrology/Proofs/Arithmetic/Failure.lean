import Metrology.Kind
import Metrology.Proofs.Arithmetic.Dimension
import Metrology.Proofs.Reduction.Failure

/-!
The class of the error of an operation. Whatever fails in reading, tidying or reducing quantities is an error of
format, and addition and conversion fail in one more way, on quantities that reduce to different units: then they
are said to differ (`add_code`, `convert_code`).
-/

namespace Metrology
open Outcome

variable {α : Type} {e : Error}

theorem Error.IsOutOfRange.code (h : e.IsOutOfRange) : e.code = .format := by
  obtain ⟨unit, rfl⟩ := h
  rfl

theorem Registry.Fault.code {r : Registry α} {cs : List Char} (fault : Fault r cs e) : e.code = .format := by
  cases fault with
  | shape _ => rfl
  | currency _ fault => cases fault <;> rfl
  | token _ _ fault => cases fault <;> rfl

variable [Scalar α] {r : Registry α} {q a b p s t : Quantity α} {text : String}

theorem Quantity.inverse_error (h : q.inverse = .error e) : e.IsOutOfRange := by
  rcases bind_error h with inverted | ⟨us, -, tidied⟩
  · obtain ⟨u, -, failed⟩ := mapM_error inverted
    exact ⟨u.spelling, (Factor.invert_error.mp failed).1⟩
  · exact tidy_error tidied

theorem Quantity.format_error {parts : Parts} {style : Style} (h : q.format parts style = .error e) :
    parts = .neither ∧ e = .emptyRendering := by
  unfold format at h
  split at h
  · rename_i nothing
    exact ⟨nothing, (Except.error.inj h).symm⟩
  · cases h

namespace Registry
open Quantity

/-! ### Reading and reducing -/

theorem parse_code (h : r.parse text = .error e) : e.code = .format :=
  (fault_of_parse h).code

theorem parseWithAmount_code {x : α} (h : r.parseWithAmount x text = .error e) : e.code = .format := by
  rcases bind_error h with unread | ⟨_, -, h⟩
  · exact parse_code unread
  · cases h

theorem pass_code (h : r.pass q = .error e) : e.code = .format := by
  rcases pass_error h with range | ⟨u, -, metric, -, unread⟩
  · exact range.code
  · exact parse_code unread

theorem passes_code {start : Quantity α} {n : Nat} (h : r.passes start n q = .error e) : e.code = .format := by
  induction n generalizing q with
  | zero =>
    unfold passes at h
    split at h
    · cases h
    · obtain rfl := Except.error.inj h
      rfl
  | succ n ih =>
    unfold passes at h
    split at h
    · cases h
    · rcases bind_error h with failed | ⟨next, -, h⟩
      · exact pass_code failed
      · exact ih h

theorem reduce_code (h : r.reduce q = .error e) : e.code = .format := by
  rcases bind_error h with untidy | ⟨_, -, h⟩
  · exact (tidy_error untidy).code
  · rcases bind_error h with passed | ⟨_, -, h⟩
    · exact passes_code passed
    · cases h

/-! ### Operations that reduce -/

theorem multiply_code (h : r.multiply a b = .error e) : e.code = .format := by
  rcases bind_error h with first | ⟨_, -, h⟩
  · exact reduce_code first
  · rcases bind_error h with second | ⟨_, -, h⟩
    · exact reduce_code second
    · exact (tidy_error h).code

theorem divide_code (h : r.divide a b = .error e) : e.code = .format := by
  rcases bind_error h with inverted | ⟨_, -, h⟩
  · exact (inverse_error inverted).code
  · exact multiply_code h

theorem compatible_code (h : r.compatible a b = .error e) : e.code = .format := by
  rcases bind_error h with first | ⟨_, -, h⟩
  · exact reduce_code first
  · rcases bind_error h with second | ⟨_, -, h⟩
    · exact reduce_code second
    · cases h

theorem firstFit_code {kinds : List Kind} (h : Kind.firstFit r q kinds = .error e) : e.code = .format := by
  induction kinds with
  | nil => cases h
  | cons kind kinds ih =>
    rcases bind_error h with unfit | ⟨fits, -, h⟩
    · unfold Kind.fits at unfit
      split at unfit
      · cases unfit
      · rcases bind_error unfit with unread | ⟨_, -, unfit⟩
        · exact parse_code unread
        · exact compatible_code unfit
    · cases fits with
      | true => cases h
      | false => exact ih h

theorem classify_code (h : Kind.classify r q = .error e) : e.code = .format := by
  rcases bind_error h with failed | ⟨t, -, h⟩
  · exact reduce_code failed
  · split at h
    · cases h
    · exact firstFit_code h

/-! ### Sums and conversions -/

/-- Both quantities reduce, and not to the same units. -/
def Differ (r : Registry α) (a b : Quantity α) : Prop :=
  ∃ s t, r.reduce a = .ok s ∧ r.reduce b = .ok t ∧ s.units ≠ t.units

/-- The check for the same units tells equal lists of reduced factors. -/
theorem sameUnits_iff_units (indexed : r.Indexed) (acyclic : r.Acyclic) (ha : r.Covers a.units)
    (hb : r.Covers b.units) (first : r.reduce a = .ok s) (second : r.reduce b = .ok t) :
    s.sameUnits t = true ↔ s.units = t.units := by
  constructor
  · intro same
    have dimension := (sameUnits_iff indexed acyclic ha hb first second).mp same
    exact units_eq_of_dimension indexed acyclic ha hb first second dimension
  · exact sameUnits_of_units

theorem requireSameUnits_code (indexed : r.Indexed) (acyclic : r.Acyclic) (ha : r.Covers a.units)
    (hb : r.Covers b.units) (first : r.reduce a = .ok s) (second : r.reduce b = .ok t)
    (h : requireSameUnits s t = .error e) : e.code = .incompatibleUnits ∧ r.Differ a b := by
  unfold requireSameUnits at h
  split at h
  · cases h
  · rename_i different
    obtain rfl := Except.error.inj h
    rw [sameUnits_iff_units indexed acyclic ha hb first second] at different
    exact ⟨rfl, s, t, first, second, different⟩

theorem add_code (indexed : r.Indexed) (acyclic : r.Acyclic) (ha : r.Covers a.units) (hb : r.Covers b.units)
    (h : r.add a b = .error e) : e.code = .format ∨ e.code = .incompatibleUnits ∧ r.Differ a b := by
  rcases bind_error h with failed | ⟨s, first, h⟩
  · exact .inl (reduce_code failed)
  · rcases bind_error h with failed | ⟨t, second, h⟩
    · exact .inl (reduce_code failed)
    · rcases bind_error h with refused | ⟨_, -, h⟩
      · exact .inr (requireSameUnits_code indexed acyclic ha hb first second refused)
      · cases h

theorem Differ.add (indexed : r.Indexed) (acyclic : r.Acyclic) (ha : r.Covers a.units) (hb : r.Covers b.units)
    (differ : r.Differ a b) : ∃ e, r.add a b = .error e ∧ e.code = .incompatibleUnits := by
  obtain ⟨s, t, first, second, different⟩ := differ
  rw [Ne, ← sameUnits_iff_units indexed acyclic ha hb first second] at different
  exact ⟨_, add_error first second different, rfl⟩

/-- The sign of a quantity has no part in whether it differs. -/
theorem differ_negate : r.Differ a b.negate ↔ r.Differ a b := by
  constructor
  · rintro ⟨s, t, first, second, different⟩
    obtain ⟨x, again⟩ := reduce_amount (q := b.negate) b.amount second
    exact ⟨s, _, first, again, different⟩
  · rintro ⟨s, t, first, second, different⟩
    obtain ⟨x, negated⟩ := reduce_amount (-b.amount) second
    exact ⟨s, _, first, negated, different⟩

theorem subtract_code (indexed : r.Indexed) (acyclic : r.Acyclic) (ha : r.Covers a.units) (hb : r.Covers b.units)
    (h : r.subtract a b = .error e) : e.code = .format ∨ e.code = .incompatibleUnits ∧ r.Differ a b := by
  rw [← differ_negate]
  exact add_code (b := b.negate) indexed acyclic ha hb h

theorem Differ.subtract (indexed : r.Indexed) (acyclic : r.Acyclic) (ha : r.Covers a.units) (hb : r.Covers b.units)
    (differ : r.Differ a b) : ∃ e, r.subtract a b = .error e ∧ e.code = .incompatibleUnits :=
  (differ_negate.mpr differ).add (b := b.negate) indexed acyclic ha hb

/-- A text that a conversion can aim at: it reads as `p`, of an amount near one, and has the tidy form `t`. -/
structure Aims (r : Registry α) (text : String) (p t : Quantity α) : Prop where
  parsed : r.parse text = .ok p
  near : Scalar.isNear Scalar.defaultTolerance p.amount Scalar.one = true
  tidied : p.tidy = .ok t

theorem Aims.parseTarget (aims : Aims r text p t) : r.parseTarget text = .ok { t with amount := Scalar.one } := by
  refine bind_ok_iff.mpr ⟨p, aims.parsed, ?_⟩
  rw [if_pos aims.near]
  exact bind_ok_iff.mpr ⟨t, aims.tidied, rfl⟩

theorem aims_of_parseTarget {target : Quantity α} (h : r.parseTarget text = .ok target) :
    ∃ p t, Aims r text p t ∧ target = { t with amount := Scalar.one } := by
  obtain ⟨p, parsed, h⟩ := bind_ok h
  split at h
  · rename_i near
    obtain ⟨t, tidied, h⟩ := bind_ok h
    exact ⟨p, t, ⟨parsed, near, tidied⟩, pure_ok h⟩
  · cases h

theorem parseTarget_code (h : r.parseTarget text = .error e) : e.code = .format := by
  rcases bind_error h with unread | ⟨p, -, h⟩
  · exact parse_code unread
  · split at h
    · rcases bind_error h with untidy | ⟨_, -, h⟩
      · exact (tidy_error untidy).code
      · cases h
    · obtain rfl := Except.error.inj h
      rfl

/-- The units that a conversion aims at reduce as the target does. -/
theorem Aims.differ_iff (indexed : r.Indexed) (aims : Aims r text p t) :
    r.Differ q { t with amount := Scalar.one } ↔ r.Differ q p := by
  have covers : r.Covers p.units := covers_parse indexed aims.parsed
  constructor
  · rintro ⟨s, c, first, second, different⟩
    obtain ⟨x, reduced⟩ := reduce_of_tidied indexed.toNumbered covers aims.tidied second
    exact ⟨s, _, first, reduced, different⟩
  · rintro ⟨s, c, first, second, different⟩
    obtain ⟨x, reduced⟩ := reduce_of_tidy indexed.toNumbered covers aims.tidied Scalar.one second
    exact ⟨s, _, first, reduced, different⟩

theorem Aims.covers (indexed : r.Indexed) (aims : Aims r text p t) :
    r.Covers ({ t with amount := Scalar.one } : Quantity α).units := by
  have covers : r.Covers t.units := tidy_covers (covers_parse indexed aims.parsed) aims.tidied
  exact covers

theorem convert_code (indexed : r.Indexed) (acyclic : r.Acyclic) (covers : r.Covers q.units)
    (h : r.convert q text = .error e) :
    e.code = .format ∨ e.code = .incompatibleUnits ∧ ∃ p t, Aims r text p t ∧ r.Differ q p := by
  rcases bind_error h with failed | ⟨target, aimed, h⟩
  · exact .inl (parseTarget_code failed)
  · rcases bind_error h with failed | ⟨s, first, h⟩
    · exact .inl (reduce_code failed)
    · rcases bind_error h with failed | ⟨c, second, h⟩
      · exact .inl (reduce_code failed)
      · rcases bind_error h with refused | ⟨_, -, h⟩
        · obtain ⟨p, t, aims, rfl⟩ := aims_of_parseTarget aimed
          obtain ⟨code, differ⟩ := requireSameUnits_code indexed acyclic covers (aims.covers indexed)
            first second refused
          exact .inr ⟨code, p, t, aims, (aims.differ_iff indexed).mp differ⟩
        · cases h

theorem Differ.convert (indexed : r.Indexed) (acyclic : r.Acyclic) (covers : r.Covers q.units)
    (aims : Aims r text p t) (differ : r.Differ q p) :
    ∃ e, r.convert q text = .error e ∧ e.code = .incompatibleUnits := by
  obtain ⟨s, c, first, second, different⟩ := (aims.differ_iff indexed).mpr differ
  rw [Ne, ← sameUnits_iff_units indexed acyclic covers (aims.covers indexed) first second] at different
  refine ⟨.incompatibleUnits s.unitLabel c.unitLabel, ?_, rfl⟩
  rw [Registry.convert, aims.parseTarget, first]
  show (r.reduce _ >>= _) = _
  rw [second]
  show (requireSameUnits s c >>= _) = _
  rw [requireSameUnits_error different]
  rfl

end Registry

end Metrology
