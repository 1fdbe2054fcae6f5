import Metrology.Proofs.Arithmetic.Dimension

/-!
Which results are tidy. Every computation brings the units of its result into the canonical shape,
whatever the shape of its operands, with one exception: the first power hands its operand on as it
stands. Main statement: `tidy_compute`.
-/

namespace Metrology.Registry
open Outcome Quantity

variable {α : Type} [Scalar α] {r : Registry α} {a b q : Quantity α} {text : String}

/-- What can be computed from two quantities over one registry. -/
inductive Computation where
  | reduce
  | inverse
  | pow (n : Exponent)
  | multiply
  | divide
  | add
  | subtract
  | convert (target : String)
  deriving DecidableEq

def compute (r : Registry α) (a b : Quantity α) : Computation → Except Error (Quantity α)
  | .reduce => r.reduce a
  | .inverse => a.inverse
  | .pow n => a.pow n
  | .multiply => r.multiply a b
  | .divide => r.divide a b
  | .add => r.add a b
  | .subtract => r.subtract a b
  | .convert target => r.convert a target

/-! ### One lemma for each computation -/

theorem tidy_inverse (indexed : r.Indexed) (covers : r.Covers a.units) (h : a.inverse = .ok q) : Tidy q.units := by
  obtain ⟨us, scaled, tidied⟩ := inverse_ok h
  exact tidy_shape (q := ⟨_, us⟩) indexed.toNumbered (covers_scaled scaled covers) tidied

/-- Any power but the first is tidy. -/
theorem tidy_pow (indexed : r.Indexed) {n : Exponent} (several : n.val ≠ 1) (covers : r.Covers a.units)
    (h : a.pow n = .ok q) : Tidy q.units := by
  rcases pow_ok h with ⟨-, rfl⟩ | ⟨one, -⟩ | ⟨us, scaled, tidied⟩
  · exact tidy_nil
  · exact absurd one several
  · exact tidy_shape (q := ⟨_, us⟩) indexed.toNumbered (covers_scaled scaled covers) tidied

theorem pow_one : a.pow 1 = .ok a := rfl

theorem covers_product (indexed : r.Indexed) {s t : Quantity α} (ha : r.Covers a.units) (hb : r.Covers b.units)
    (first : r.reduce a = .ok s) (second : r.reduce b = .ok t) : r.Covers (s.units ++ t.units) :=
  covers_append.mpr ⟨covers_reduce indexed ha first, covers_reduce indexed hb second⟩

theorem tidy_multiply (indexed : r.Indexed) (ha : r.Covers a.units) (hb : r.Covers b.units)
    (h : r.multiply a b = .ok q) : Tidy q.units := by
  obtain ⟨s, t, first, second, tidied⟩ := multiply_ok h
  exact tidy_shape (q := ⟨_, s.units ++ t.units⟩) indexed.toNumbered (covers_product indexed ha hb first second) tidied

theorem tidy_divide (indexed : r.Indexed) (ha : r.Covers a.units) (hb : r.Covers b.units)
    (h : r.divide a b = .ok q) : Tidy q.units := by
  obtain ⟨c, inverted, multiplied⟩ := divide_ok h
  exact tidy_multiply indexed ha (covers_inverse hb inverted) multiplied

theorem tidy_add (indexed : r.Indexed) (ha : r.Covers a.units) (h : r.add a b = .ok q) : Tidy q.units := by
  obtain ⟨s, t, first, -, -, rfl⟩ := add_ok h
  have shape : Tidy s.units := tidy_reduce indexed ha first
  exact shape

theorem tidy_convert (indexed : r.Indexed) (h : r.convert a text = .ok q) : Tidy q.units := by
  obtain ⟨t, s, c, aimed, -, -, -, rfl⟩ := convert_ok h
  obtain ⟨p, tidied, parsed, first, rfl⟩ := parseTarget_ok aimed
  have shape : Tidy tidied.units := tidy_shape indexed.toNumbered (covers_parse indexed parsed) first
  exact shape

/-! ### All computations -/

/-- Over any registry the result of a computation is tidy, whatever its operands, unless it is the first
power of a quantity that is not tidy. -/
theorem tidy_compute (reachable : r.Reachable) (ha : r.Covers a.units) (hb : r.Covers b.units)
    (computation : Computation) (h : r.compute a b computation = .ok q) :
    Tidy q.units ↔ computation ≠ .pow 1 ∨ Tidy a.units := by
  have indexed := reachable.indexed
  cases computation with
  | reduce => exact iff_of_true (tidy_reduce indexed ha h) (.inl nofun)
  | inverse => exact iff_of_true (tidy_inverse indexed ha h) (.inl nofun)
  | multiply => exact iff_of_true (tidy_multiply indexed ha hb h) (.inl nofun)
  | divide => exact iff_of_true (tidy_divide indexed ha hb h) (.inl nofun)
  | add => exact iff_of_true (tidy_add indexed ha h) (.inl nofun)
  | subtract => exact iff_of_true (tidy_add (b := b.negate) indexed ha h) (.inl nofun)
  | convert text => exact iff_of_true (tidy_convert indexed h) (.inl nofun)
  | pow n =>
    by_cases one : n = 1
    · subst one
      obtain rfl : a = q := Except.ok.inj (pow_one.symm.trans h)
      simp
    · have several : n.val ≠ 1 := fun same => one (Exponent.val_inj.mp same)
      exact iff_of_true (tidy_pow indexed several ha h) (.inl fun same => one (Computation.pow.inj same))

/-- A product of `3 km²·cm/mg` with itself is tidy, and so is its square, but not its first power. -/
theorem tidy_compute_volumePerMass :
    ¬Tidy volumePerMass.units ∧
      (∃ q, standard.compute volumePerMass volumePerMass .multiply = .ok q ∧ Tidy q.units) ∧
      (∃ q, standard.compute volumePerMass volumePerMass (.pow .squared) = .ok q ∧ Tidy q.units) ∧
      ∃ q, standard.compute volumePerMass volumePerMass (.pow 1) = .ok q ∧ ¬Tidy q.units := by
  have untidy : ¬Tidy volumePerMass.units := fun tidy => absurd tidy.distinct (by decide)
  have law {q} (computation) := tidy_compute (q := q) builtin_reachable volumePerMass_covers volumePerMass_covers computation
  obtain ⟨product, multiplied⟩ := isOk_iff.mp
    (show (standard.compute volumePerMass volumePerMass .multiply).isOk = true by decide +kernel)
  obtain ⟨square, squared⟩ := isOk_iff.mp
    (show (standard.compute volumePerMass volumePerMass (.pow .squared)).isOk = true by decide +kernel)
  refine ⟨untidy, ⟨product, multiplied, (law _ multiplied).mpr (.inl nofun)⟩,
    ⟨square, squared, (law _ squared).mpr (.inl (by decide))⟩, volumePerMass, pow_one, untidy⟩

/-! ### The first power -/

/-- `m·m`, as it is written. -/
def metreMetre : Quantity Float :=
  ⟨1, [⟨Builtin.metre, none, 1⟩, ⟨Builtin.metre, none, 1⟩]⟩

theorem parse_metreMetre : standard.parse "m*m" = .ok metreMetre := by
  have scanned : Expression.scan? (Text.trim "m*m".toList) =
      some (.physical none [⟨.times, ['m'], none⟩, ⟨.times, ['m'], none⟩]) := by
    decide +kernel
  have metre : standard.readings[String.ofList ['m']]? = some ⟨Builtin.metre, none⟩ := by
    rw [standard_indexed.getElem?_readings]
    exact (congrArg (reading? · _) builtin_units).trans rfl
  simp only [parse, scanned, evaluate, List.mapM_cons, List.mapM_nil, resolveToken, resolve, metre]
  rfl

/-- The first power of `m·m` has two factors with one base. -/
theorem pow_metreMetre_untidy :
    ∃ q p, standard.parse "m*m" = .ok q ∧ standard.Covers q.units ∧ q.pow 1 = .ok p ∧ ¬Tidy p.units := by
  refine ⟨metreMetre, metreMetre, parse_metreMetre, covers_parse standard_indexed parse_metreMetre, pow_one, ?_⟩
  exact fun tidy => absurd tidy.distinct (by decide)

end Metrology.Registry
