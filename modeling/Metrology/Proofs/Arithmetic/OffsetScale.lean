import Metrology.Proofs.Arithmetic.Dimension
import Metrology.Proofs.Reduction.Idempotence
import Metrology.Proofs.Reduction.OffsetScale
import Metrology.Proofs.Reduction.Termination
import Metrology.Proofs.Reduction.Value
import Metrology.Proofs.Registry.OffsetScale
import Metrology.Proofs.Registry.Resolution

/-!
Scales with an offset in any registry, from a quantity on the scale to its reduction and back.
Reduction reads the scale off into its metric expression and goes on to reduce that (`reduce_onScale`);
conversion applies the inverse scale to the canonical amount at once (`convert_onScale`). Main
statement: `exact_convert_offset`, by which the two undo each other exactly where the metric
expression is one of the canonical units, or the reading is zero.
-/

namespace Metrology.Registry
open Outcome Quantity Expression

section Scale

variable {α : Type} [Scalar α] {r : Registry α} {q m : Quantity α} {u : BaseUnit α} {scale : OffsetScale α} {x : α}

/-- `x` on the scale of `u` -/
def onScale (u : BaseUnit α) (x : α) : Quantity α :=
  ⟨x, [⟨u, none, 1⟩]⟩

omit [Scalar α] in
theorem onScale_tidy (u : BaseUnit α) (x : α) : Tidy (onScale u x).units :=
  tidy_singleton one_ne_zero

omit [Scalar α] in
theorem onScale_lone (affine : u.definition = .affine scale) (x : α) : (onScale u x).offsetScale? = some scale := by
  have bare : (onScale u x).offsetScale? = u.definition.offsetScale? := rfl
  rw [bare, affine]
  rfl

omit [Scalar α] in
theorem onScale_unfinished (affine : u.definition = .affine scale) (x : α) : ¬IsCanonical (onScale u x) := by
  intro canonical
  have irreducible := (Factor.isCanonical_iff.mp (canonical _ (List.mem_singleton_self _))).1
  rw [affine] at irreducible
  cases irreducible

/-- The first pass reads the scale off, and the others reduce its metric expression. -/
theorem reduce_onScale [Scalar.Lawful α] (affine : u.definition = .affine scale) (h : r.reduce (onScale u x) = .ok q) :
    ∃ m, r.parse scale.metric = .ok m ∧ r.reduce ⟨scale.toMetric x, m.units⟩ = .ok q := by
  obtain ⟨tidied, reduced, first, passed, rfl⟩ := reduce_ok h
  obtain rfl : onScale u x = tidied := Except.ok.inj ((tidy_fixed (onScale_tidy u x)).symm.trans first)
  obtain ⟨n, some⟩ : ∃ n, maxPasses = n + 1 := ⟨_, rfl⟩
  rw [some, passes_unfinished (onScale_unfinished affine x)] at passed
  obtain ⟨next, read, passed⟩ := bind_ok passed
  rcases pass_ok read with ⟨scale', m, lone, parsed, tidied⟩ | ⟨several, -⟩
  · obtain rfl : scale = scale' := Option.some.inj ((onScale_lone affine x).symm.trans lone)
    have spare := passes_spare ⟨scale.toMetric x, m.units⟩ (m := maxPasses) (by omega) passed
    exact ⟨m, parsed, bind_ok_iff.mpr ⟨next, tidied, bind_ok_iff.mpr ⟨reduced, spare, rfl⟩⟩⟩
  · rw [onScale_lone affine] at several
    cases several

end Scale

section Exact

variable {r : Registry Rat} {q m : Quantity Rat} {u : BaseUnit Rat} {scale : OffsetScale Rat} {x : Rat}

/-! ### Back to the scale -/

/-- The inverse scale is applied to the canonical amount, whatever the metric expression is worth. -/
theorem convert_onScale (indexed : r.Indexed) (member : u ∈ r.units) (affine : u.definition = .affine scale)
    (legible : IsSpelling u.symbol.toList) (h : r.reduce (onScale u x) = .ok q) :
    r.convert q u.symbol = .ok (onScale u (scale.fromMetric q.amount)) := by
  have aimed : r.parseTarget u.symbol = .ok (onScale u Scalar.one) := by
    refine bind_ok_iff.mpr ⟨_, parse_symbol indexed member legible, ?_⟩
    exact (if_pos (Scalar.isNear_refl _ _)).trans (bind_ok_iff.mpr ⟨_, tidy_fixed (onScale_tidy u _), rfl⟩)
  have reduced : r.reduce q = .ok q :=
    exact_reduce_of_reduced (reduced_reduce (q := onScale u x) indexed (covers_singleton.mpr member) h)
  obtain ⟨y, canonical⟩ := reduce_amount (Scalar.one : Rat) h
  have same : q.sameUnits ⟨y, q.units⟩ = true := BEq.rfl
  rw [convert_of_sameUnits aimed reduced canonical same, convertedAmount, onScale_lone affine]
  rfl

/-- In a plain registry the reading is multiplied by what one of the metric expression reduces to. -/
theorem reduce_reading (indexed : r.Indexed) (plain : r.Plain) (member : u ∈ r.units)
    (affine : u.definition = .affine scale) (parsed : r.parse scale.metric = .ok m)
    (h : r.reduce ⟨x, m.units⟩ = .ok q) : ∃ k, r.reduce ⟨1, m.units⟩ = .ok ⟨k, q.units⟩ ∧ q.amount = x * k := by
  have covers : r.Covers m.units := covers_parse indexed parsed
  have defined : u.definition.metric? = some scale.metric := by
    rw [affine]
    rfl
  have linear : ∀ w ∈ m.units, w.base.definition.offsetScale? = none :=
    fun w origin => plain u member _ (depends_of_parse defined parsed origin)
  obtain ⟨k, one⟩ := reduce_amount (1 : Rat) h
  obtain ⟨tidied, -, first, -, -⟩ := reduce_ok one
  have several : tidied.offsetScale? = none := by
    refine offsetScale?_of_linear fun w present => ?_
    obtain ⟨v, origin, base, -⟩ := tidy_origin first present
    rw [base]
    exact linear v origin
  have scaled := reduce_scaled (q := ⟨1, m.units⟩) indexed plain x covers first several one
  simp only [mul_one] at scaled
  refine ⟨k, one, ?_⟩
  rw [Except.ok.inj (h.symm.trans scaled)]

/-! ### A scale of kilokelvins -/

/-- Kelvins with a kilo, and a scale that counts kilokelvins from the zero of the Celsius scale. -/
def kilokelvinScale : List (Command Rat) :=
  [.register (accepting "K" ["k"]),
    .register (Builtin.affine "X" "kilocelsius" "kK" Scale.celsiusToKelvin Scale.kelvinToCelsius)]

def kelvin : BaseUnit Rat :=
  { accepting "K" ["k"] with order := 1 }

def kilocelsius : BaseUnit Rat :=
  { Builtin.affine "X" "kilocelsius" "kK" Scale.celsiusToKelvin Scale.kelvinToCelsius with order := 2 }

theorem kilocelsius_affine :
    kilocelsius.definition = .affine ⟨"kK", Scale.celsiusToKelvin, Scale.kelvinToCelsius⟩ := rfl

theorem units_kilokelvinScale : (empty.run kilokelvinScale).units = [kelvin, kilocelsius] := by
  simp [run, kilokelvinScale, execute, Command.apply, register, insert, accepting, Builtin.affine, empty, reindex,
    nextOrder, size, kelvin, kilocelsius]

theorem kilocelsius_mem : kilocelsius ∈ (empty.run kilokelvinScale).units := by
  rw [units_kilokelvinScale]
  exact .tail _ (.head _)

theorem kilokelvinScale_indexed : (empty.run kilokelvinScale).Indexed :=
  (Reachable.empty.run kilokelvinScale).indexed

theorem kilokelvin_legible : IsSpelling "kK".toList :=
  ⟨by simp, by simp [isSymbolChar], by simp⟩

theorem reading_kilokelvin :
    reading? (empty.run kilokelvinScale).units "kK" = some ⟨kelvin, Prefix.named? "k"⟩ := by
  rw [units_kilokelvinScale]
  rfl

/-- The kilokelvin is the one definition. -/
theorem depends_kilokelvinScale {v : BaseUnit Rat} (member : u ∈ (empty.run kilokelvinScale).units)
    (h : (empty.run kilokelvinScale).Depends u v) : u = kilocelsius ∧ v = kelvin := by
  obtain ⟨metric, defined, s, named, reading, read, rfl⟩ := h
  rw [kilokelvinScale_indexed.getElem?_readings] at read
  rw [units_kilokelvinScale, List.mem_pair] at member
  rcases member with rfl | rfl
  · cases defined
  · obtain rfl : "kK" = metric := Option.some.inj defined
    rw [spellings_token kilokelvin_legible, List.mem_singleton] at named
    rw [named, reading_kilokelvin] at read
    obtain rfl := Option.some.inj read
    exact ⟨rfl, rfl⟩

theorem kilokelvinScale_acyclic : (empty.run kilokelvinScale).Acyclic := by
  refine acyclic_of_rank kilokelvinScale_indexed (·.order) fun u member v edge => ?_
  obtain ⟨rfl, rfl⟩ := depends_kilokelvinScale member edge
  decide

theorem kilokelvinScale_plain : (empty.run kilokelvinScale).Plain := by
  intro u member v edge
  obtain ⟨-, rfl⟩ := depends_kilokelvinScale member edge
  rfl

/-- `x` kelvins, with or without a prefix -/
def inKelvins (x : Rat) (pre : Option (Prefix Rat)) : Quantity Rat :=
  ⟨x, [⟨kelvin, pre, 1⟩]⟩

theorem parse_kilokelvin : (empty.run kilokelvinScale).parse "kK" = .ok (inKelvins Scalar.one (Prefix.named? "k")) :=
  parse_token kilokelvinScale_indexed kilokelvin_legible reading_kilokelvin

/-- One pass reads the scale off, and one expands the kilo. -/
theorem reduce_kilocelsius (x : Rat) :
    (empty.run kilokelvinScale).reduce (onScale kilocelsius x) =
      .ok (inKelvins (Scale.celsiusToKelvin x * 1000) none) := by
  have read : (empty.run kilokelvinScale).pass (onScale kilocelsius x) =
      .ok (inKelvins (Scale.celsiusToKelvin x) (Prefix.named? "k")) :=
    (pass_offset (onScale_lone kilocelsius_affine x) parse_kilokelvin).trans (tidy_fixed (tidy_singleton one_ne_zero))
  have expanded : (empty.run kilokelvinScale).pass (inKelvins (Scale.celsiusToKelvin x) (Prefix.named? "k")) =
      .ok (inKelvins (Scale.celsiusToKelvin x * 1000) none) := by
    have kilo : (empty.run kilokelvinScale).expand (Scale.celsiusToKelvin x) ⟨kelvin, Prefix.named? "k", 1⟩ =
        .ok (Scale.celsiusToKelvin x * 1000, [⟨kelvin, none, 1⟩]) := by
      rw [expand_irreducible rfl]
      show Except.ok (_ * Scalar.pow (Scalar.ofFloat 1e3) 1, _) = _
      rw [Scalar.pow_eq_zpow, Scalar.ofFloat_kilo, zpow_one]
    exact (pass_factors rfl (expandAll_singleton kilo)).trans (tidy_fixed (tidy_singleton one_ne_zero))
  have unfinished : ¬IsCanonical (inKelvins (Scale.celsiusToKelvin x) (Prefix.named? "k")) :=
    fun canonical => nomatch (Factor.isCanonical_iff.mp (canonical _ (List.mem_singleton_self _))).2
  have canonical : IsCanonical (inKelvins (Scale.celsiusToKelvin x * 1000) none) := by
    intro u member
    rw [List.mem_singleton.mp member]
    rfl
  have run := Run.step (onScale_unfinished kilocelsius_affine x) read (.step unfinished expanded (.done canonical))
  rw [reduce_of_run (tidy_fixed (onScale_tidy kilocelsius x)) run, if_pos (by decide)]
  rfl

theorem kilocelsius_legible : IsSpelling kilocelsius.symbol.toList :=
  ⟨by simp [kilocelsius, Builtin.affine], by simp [kilocelsius, Builtin.affine, isSymbolChar],
    by simp [kilocelsius, Builtin.affine]⟩

theorem kilocelsius_other : Scale.celsiusToKelvin (5 : Rat) * 1000 ≠ Scale.celsiusToKelvin 5 := by decide +kernel

/-! ### The way back -/

/-- Over exact numbers a quantity on a scale with an offset always converts back to its scale, at the
inverse scale of the canonical amount. For a scale and its inverse that is the quantity itself exactly
where the canonical amount is the reading of the scale. Without scales inside definitions, this amount
is the reading times what one of the metric expression reduces to, so all quantities come back exactly
when that is one. -/
theorem exact_convert_offset (reachable : r.Reachable) (member : u ∈ r.units) (affine : u.definition = .affine scale)
    (legible : IsSpelling u.symbol.toList) (h : r.reduce (onScale u x) = .ok q) :
    r.convert q u.symbol = .ok (onScale u (scale.fromMetric q.amount)) ∧
      (Function.LeftInverse scale.fromMetric scale.toMetric → Function.RightInverse scale.fromMetric scale.toMetric →
        (r.convert q u.symbol = .ok (onScale u x) ↔ q.amount = scale.toMetric x)) ∧
      ∃ m, r.parse scale.metric = .ok m ∧ r.reduce ⟨scale.toMetric x, m.units⟩ = .ok q ∧
        (r.Plain → ∃ k, r.reduce ⟨1, m.units⟩ = .ok ⟨k, q.units⟩ ∧ q.amount = scale.toMetric x * k ∧
          (q.amount = scale.toMetric x ↔ k = 1 ∨ scale.toMetric x = 0)) := by
  have indexed := reachable.indexed
  have converted := convert_onScale indexed member affine legible h
  obtain ⟨m, parsed, rest⟩ := reduce_onScale affine h
  refine ⟨converted, ?_, m, parsed, rest, ?_⟩
  · intro left right
    rw [converted, Except.ok.injEq, onScale, onScale, Quantity.mk.injEq, and_iff_left rfl]
    constructor
    · intro back
      rw [← back, right]
    · intro reading
      rw [reading, left]
  · intro plain
    obtain ⟨k, one, amount⟩ := reduce_reading indexed plain member affine parsed rest
    refine ⟨k, one, amount, ?_⟩
    rw [amount]
    exact mul_right_eq_self₀

theorem exact_convert_offset_samples :
    (∃ q, exact.reduce (onScale Builtin.celsius 20) = .ok q ∧
        exact.convert q "°C" = .ok (onScale Builtin.celsius 20)) ∧
      ∃ q m k, (empty.run kilokelvinScale).reduce (onScale kilocelsius 5) = .ok q ∧
        (empty.run kilokelvinScale).convert q "X" =
          .ok (onScale kilocelsius (Scale.kelvinToCelsius (Scale.celsiusToKelvin 5 * 1000))) ∧
        (empty.run kilokelvinScale).parse "kK" = .ok m ∧
        (empty.run kilokelvinScale).reduce ⟨1, m.units⟩ = .ok ⟨k, q.units⟩ ∧ k ≠ 1 ∧
        (empty.run kilokelvinScale).convert q "X" ≠ .ok (onScale kilocelsius 5) := by
  have left : Function.LeftInverse (Scale.kelvinToCelsius : Rat → Rat) Scale.celsiusToKelvin :=
    Scale.celsius_genuine.fromMetric_toMetric
  have right : Function.RightInverse (Scale.kelvinToCelsius : Rat → Rat) Scale.celsiusToKelvin :=
    Scale.celsius_genuine.toMetric_fromMetric
  constructor
  · have reduced := reduce_lone (q := onScale (Builtin.celsius : BaseUnit Rat) 20)
      (covers_singleton.mpr Builtin.celsius_mem) (tidy_fixed (onScale_tidy _ _)) rfl
    obtain ⟨-, back, -⟩ := exact_convert_offset builtin_reachable Builtin.celsius_mem rfl
      ⟨by simp [Builtin.celsius, Builtin.affine], by simp [Builtin.celsius, Builtin.affine, isSymbolChar],
        by simp [Builtin.celsius, Builtin.affine]⟩ reduced
    exact ⟨_, reduced, (back left right).mpr (Scalar.Lawful.mul_one _)⟩
  · obtain ⟨converted, back, m, parsed, -, multiple⟩ := exact_convert_offset
      (Reachable.empty.run kilokelvinScale) kilocelsius_mem kilocelsius_affine kilocelsius_legible (reduce_kilocelsius 5)
    obtain ⟨k, one, -, reading⟩ := multiple kilokelvinScale_plain
    exact ⟨inKelvins (Scale.celsiusToKelvin 5 * 1000) none, m, k, reduce_kilocelsius 5, converted, parsed, one,
      fun unit => kilocelsius_other (reading.mpr (.inl unit)),
      fun same => kilocelsius_other ((back left right).mp same)⟩

/-- Five kilocelsius are 278150 kelvins, and these convert to another number of kilocelsius. -/
theorem convert_kilocelsius :
    (empty.run kilokelvinScale).Reachable ∧ (empty.run kilokelvinScale).Acyclic ∧
      kilocelsius ∈ (empty.run kilokelvinScale).units ∧
      kilocelsius.definition = .affine ⟨"kK", Scale.celsiusToKelvin, Scale.kelvinToCelsius⟩ ∧
      Function.LeftInverse (Scale.kelvinToCelsius : Rat → Rat) Scale.celsiusToKelvin ∧
      Function.RightInverse (Scale.kelvinToCelsius : Rat → Rat) Scale.celsiusToKelvin ∧
      (empty.run kilokelvinScale).reduce (onScale kilocelsius 5) = .ok (inKelvins (Scale.celsiusToKelvin 5 * 1000) none) ∧
      (empty.run kilokelvinScale).convert (inKelvins (Scale.celsiusToKelvin 5 * 1000) none) "X" =
        .ok (onScale kilocelsius (Scale.kelvinToCelsius (Scale.celsiusToKelvin 5 * 1000))) ∧
      Scale.kelvinToCelsius (Scale.celsiusToKelvin (5 : Rat) * 1000) ≠ 5 := by
  have converted :=
    convert_onScale kilokelvinScale_indexed kilocelsius_mem kilocelsius_affine kilocelsius_legible (reduce_kilocelsius 5)
  have other : Scale.kelvinToCelsius (Scale.celsiusToKelvin (5 : Rat) * 1000) ≠ 5 := by
    intro same
    have read := Scale.celsius_genuine.toMetric_fromMetric (Scale.celsiusToKelvin 5 * 1000)
    exact kilocelsius_other (read.symm.trans (congrArg Scale.celsiusToKelvin same))
  exact ⟨Reachable.empty.run kilokelvinScale, kilokelvinScale_acyclic, kilocelsius_mem, kilocelsius_affine,
    Scale.celsius_genuine.fromMetric_toMetric, Scale.celsius_genuine.toMetric_fromMetric, reduce_kilocelsius 5,
    converted, other⟩

end Exact

end Metrology.Registry
