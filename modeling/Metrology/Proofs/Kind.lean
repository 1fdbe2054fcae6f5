import Metrology.Kind
import Metrology.Proofs.Arithmetic.Dimension
import Metrology.Proofs.Reduction.Idempotence
import Metrology.Proofs.Reduction.Standard
import Metrology.Proofs.Registry.RoundTrip

/-!
Kinds depend on dimensions alone. `Kind.ofDimension` is the kind of a dimension, and the search for a kind
finds it because a reduced quantity keeps its units when it is reduced once more for every comparison. Main
statement: `standard_classify`.
-/

namespace Metrology.Kind
open Registry Quantity Outcome

variable {α : Type} [Scalar α] {r : Registry α} {q t : Quantity α} {d : Dimension} {c : Char}

/-- The dimension of the SI unit of a kind. -/
def dimension? (r : Registry α) (kind : Kind) : Option Dimension :=
  kind.siUnit?.bind fun unit => (r.parse unit).toOption.map r.dimensionOf

/-- The dimension of a currency. -/
def IsCurrency (d : Dimension) : Prop :=
  ∃ c, isCurrencySymbol c = true ∧ d = Pi.single (String.singleton c) 1

open Classical in
/-- Money for a currency, and otherwise the first kind whose SI unit has the dimension. -/
noncomputable def ofDimension (r : Registry α) (d : Dimension) : Option Kind :=
  if IsCurrency d then some money else all.find? fun kind => kind.dimension? r = some d

/-! ### The search -/

/-- The SI units can be read and reduced. -/
def Measured (r : Registry α) : Prop :=
  ∀ kind : Kind, ∀ unit ∈ kind.siUnit?, ∃ p t, r.parse unit = .ok p ∧ r.reduce p = .ok t

open Classical in
theorem fits_eq [Scalar.Lawful α] (indexed : r.Indexed) (acyclic : r.Acyclic) (measured : Measured r)
    (covers : r.Covers q.units) (reduced : Reduced q.units) (kind : Kind) :
    kind.fits r q = .ok (decide (kind.dimension? r = some (r.dimensionOf q))) := by
  unfold fits dimension?
  cases si : kind.siUnit? with
  | none => rfl
  | some unit =>
    obtain ⟨p, t, parsed, second⟩ := measured kind unit si
    obtain ⟨x, first⟩ := reduce_units_of_reduced (r := r) reduced
    have check := sameUnits_iff indexed acyclic covers (covers_parse indexed parsed) first second
    have same : (some unit).bind (fun unit => (r.parse unit).toOption.map r.dimensionOf) = some (r.dimensionOf p) := by
      rw [Option.bind_some, parsed]
      rfl
    rw [same]
    show r.parse unit >>= r.compatible q = _
    refine bind_ok_iff.mpr ⟨p, parsed, ?_⟩
    rw [compatible_eq first second, Except.ok.injEq, Bool.eq_iff_iff, decide_eq_true_iff, Option.some_inj, check]
    exact eq_comm

open Classical in
theorem firstFit_eq [Scalar.Lawful α] (indexed : r.Indexed) (acyclic : r.Acyclic) (measured : Measured r)
    (covers : r.Covers q.units) (reduced : Reduced q.units) (kinds : List Kind) :
    firstFit r q kinds = .ok (kinds.find? fun kind => kind.dimension? r = some (r.dimensionOf q)) := by
  induction kinds with
  | nil => rfl
  | cons kind kinds ih =>
    rw [firstFit, fits_eq indexed acyclic measured covers reduced kind, List.find?_cons]
    cases decide (kind.dimension? r = some (r.dimensionOf q)) with
    | true => rfl
    | false => exact ih

/-! ### Money -/

/-- Every currency is an irreducible unit. -/
def Coined (r : Registry α) : Prop :=
  ∀ c ∈ currencySymbols, ∃ b ∈ r.units, b.symbol = String.singleton c ∧ b.definition.metric? = none

omit [Scalar α] in
theorem isCurrency_iff {b : BaseUnit α} :
    b.isCurrency = true ↔ ∃ c, isCurrencySymbol c = true ∧ b.symbol = String.singleton c := by
  unfold BaseUnit.isCurrency
  constructor
  · intro h
    split at h
    · rename_i c symbol
      refine ⟨c, h, ?_⟩
      rw [← String.ofList_toList (s := b.symbol), symbol]
      rfl
    · cases h
  · rintro ⟨c, currency, symbol⟩
    rw [symbol, String.toList_singleton]
    exact currency

omit [Scalar α] in
theorem isMoney_iff : isMoney q = true ↔ ∃ u, q.units = [u] ∧ u.exponent = 1 ∧ u.base.isCurrency = true := by
  unfold isMoney
  split
  · rename_i u units
    simp [units]
  · rename_i several
    refine ⟨nofun, ?_⟩
    rintro ⟨u, units, -⟩
    exact absurd units (several u)

/-- A reduced quantity is money exactly if its dimension is that of a currency. -/
theorem isMoney_iff_isCurrency (indexed : r.Indexed) (coined : Coined r) (covers : r.Covers q.units)
    (reduced : Reduced q.units) : isMoney q = true ↔ IsCurrency (r.dimensionOf q) := by
  rw [isMoney_iff]
  constructor
  · rintro ⟨u, units, one, currency⟩
    obtain ⟨c, isSymbol, symbol⟩ := isCurrency_iff.mp currency
    have member : u ∈ q.units := by rw [units]; exact List.mem_singleton_self u
    refine ⟨c, isSymbol, ?_⟩
    rw [dimensionOf, units, weigh_singleton, one, dimension_irreducible (covers u member) (reduced.irreducible u member),
      symbol]
    exact one_smul Int _
  · rintro ⟨c, isSymbol, dimension⟩
    obtain ⟨b, member, symbol, irreducible⟩ := coined c (by simpa [isCurrencySymbol] using isSymbol)
    -- one unit of the currency is reduced and has the same dimension
    have light : b.symbol ≠ "g" := by
      rintro gram
      rw [gram] at symbol
      have same : ['g'] = [c] := (congrArg String.toList symbol).trans (String.toList_singleton c)
      cases same
      cases isSymbol
    have unit : Reduced [(⟨b, none, 1⟩ : Factor α)] := by
      refine ⟨tidy_singleton one_ne_zero, by simpa using irreducible, ?_⟩
      rw [List.forall_mem_singleton, canonicalPrefix?, if_neg light]
    have inside : r.Covers [(⟨b, none, 1⟩ : Factor α)] := covers_singleton.mpr member
    have same : weigh r.dimension q.units = weigh r.dimension [(⟨b, none, 1⟩ : Factor α)] := by
      rw [weigh_singleton, dimension_irreducible member irreducible, symbol]
      exact dimension.trans (one_smul Int _).symm
    refine ⟨_, eq_of_reduced indexed.toNumbered covers inside reduced unit same, rfl, ?_⟩
    exact isCurrency_iff.mpr ⟨c, isSymbol, symbol⟩

/-! ### Classification -/

open Classical in
theorem classify_eq [Scalar.Lawful α] (indexed : r.Indexed) (acyclic : r.Acyclic) (measured : Measured r)
    (coined : Coined r) (covers : r.Covers q.units) :
    classify r q = (r.reduce q).map fun _ => ofDimension r (r.dimensionOf q) := by
  unfold classify
  cases reduces : r.reduce q with
  | error e => rfl
  | ok t =>
    have inside := covers_reduce indexed covers reduces
    have reduced := reduced_reduce indexed covers reduces
    have money := isMoney_iff_isCurrency indexed coined inside reduced
    have search := firstFit_eq indexed acyclic measured inside reduced all
    rw [dimension_reduce indexed acyclic covers reduces] at money search
    show (if isMoney t then .ok (some .money) else firstFit r t all) = Except.ok (ofDimension r (r.dimensionOf q))
    rw [search, ofDimension]
    simp only [money]
    split <;> rfl

/-! ### The built-in units -/

/-- The SI unit of the kind can be read as units with few exponents. -/
def Legible (units : List (BaseUnit Float)) (kind : Kind) : Prop :=
  ∀ unit ∈ kind.siUnit?, ∃ us ∈ factors? units unit, (us.map (·.exponent.val.natAbs)).sum ≤ 4

instance (units : List (BaseUnit Float)) (kind : Kind) : Decidable (Legible units kind) := by
  unfold Legible
  infer_instance

theorem legible_numbered (kind : Kind) : Legible (numbered Builtin.units) kind := by
  cases kind <;> decide +kernel

theorem standard_measured : Measured standard := by
  intro kind unit si
  have units : standard.units = numbered Builtin.units := builtin_units
  obtain ⟨us, found, small⟩ := legible_numbered kind unit si
  rw [← units] at found
  have parsed := parse_of_factors? standard_indexed found
  obtain ⟨t, reduces⟩ := standard_reduce_of_small (q := ⟨Scalar.one, us⟩) (covers_parse standard_indexed parsed)
    (small.trans (by decide))
  exact ⟨_, t, parsed, reduces⟩

theorem currencies_symbols : ∀ c ∈ currencySymbols, ∃ b ∈ (Builtin.currencies : List (BaseUnit Float)),
    b.symbol = String.singleton c ∧ b.definition.metric? = none := by
  simp [currencySymbols, Builtin.currencies, Builtin.irreducible, Definition.metric?]

theorem standard_coined : Coined standard := by
  intro c currency
  obtain ⟨b, listed, symbol, irreducible⟩ := currencies_symbols c currency
  obtain ⟨i, place⟩ := List.mem_iff_getElem?.mp
    (show b ∈ (Builtin.units : List (BaseUnit Float)) from List.mem_append_right _ listed)
  rw [show standard.units = numbered Builtin.units from builtin_units]
  exact ⟨_, mem_numbered place, symbol, irreducible⟩

/-- Over the built-in units the kind of a quantity is the kind of its dimension, and there is an error exactly
if the quantity does not reduce. Quantities that are compatible have one kind, and so have a quantity and what
it is converted to. -/
theorem standard_classify {q : Quantity Float} (covers : standard.Covers q.units) :
    classify standard q = ((standard.reduce q).map fun _ => ofDimension standard (standard.dimensionOf q)) ∧
      (∀ p, standard.Covers p.units → standard.compatible q p = .ok true →
        classify standard p = classify standard q) ∧
      ∀ text p, standard.convert q text = .ok p → classify standard p = classify standard q := by
  have indexed := standard_indexed
  have acyclic := standard_acyclic
  have kind : ∀ {p : Quantity Float}, standard.Covers p.units →
      classify standard p = (standard.reduce p).map fun _ => ofDimension standard (standard.dimensionOf p) :=
    classify_eq indexed acyclic standard_measured standard_coined
  have agree : ∀ {p s t : Quantity Float}, standard.Covers p.units → standard.reduce q = .ok s →
      standard.reduce p = .ok t → standard.dimensionOf q = standard.dimensionOf p →
      classify standard p = classify standard q := by
    intro p s t inside first second same
    rw [kind covers, kind inside, first, second, same]
    rfl
  refine ⟨kind covers, ?_, ?_⟩
  · intro p inside compatible
    obtain ⟨s, first, rest⟩ := bind_ok compatible
    obtain ⟨t, second, -⟩ := bind_ok rest
    exact agree inside first second ((compatible_iff indexed acyclic covers inside first second).mp compatible)
  · intro text p converted
    have same := dimension_convert indexed acyclic covers converted
    obtain ⟨target, s, c, aimed, first, second, -, rfl⟩ := convert_ok converted
    obtain ⟨written, tidied, parsed, tidies, rfl⟩ := parseTarget_ok aimed
    have inside : standard.Covers tidied.units := tidy_covers (covers_parse indexed parsed) tidies
    obtain ⟨x, again⟩ := reduce_amount (convertedAmount { tidied with amount := Scalar.one } s c) second
    exact agree inside first again same.symm

theorem dimension?_irreducible {b : BaseUnit α} {kind : Kind} (indexed : r.Indexed) (member : b ∈ r.units)
    (irreducible : b.definition.metric? = none) (legible : Expression.IsSpelling b.symbol.toList)
    (si : kind.siUnit? = some b.symbol) : kind.dimension? r = some (Pi.single b.symbol 1) := by
  rw [dimension?, si, Option.bind_some, parse_symbol indexed member legible]
  show some (r.dimensionOf _) = _
  rw [dimensionOf, weigh_singleton, dimension_irreducible member irreducible]
  exact congrArg some (one_smul Int _)

theorem ofDimension_metre : ofDimension standard (Pi.single "m" 1) = some length := by
  have single : ∀ {s s' : String}, (Pi.single s 1 : Dimension) = Pi.single s' 1 → s = s' := by
    intro s s' same
    have at_s := congrFun same s
    rw [Pi.single_eq_same] at at_s
    by_contra different
    rw [Pi.single_eq_of_ne different] at at_s
    exact one_ne_zero at_s
  have legible_second : Expression.IsSpelling "s".toList := ⟨by simp, by simp [isSymbolChar], by simp⟩
  have metre : length.dimension? standard = some (Pi.single "m" 1) :=
    dimension?_irreducible standard_indexed Builtin.metre_mem rfl legible_metre rfl
  have second : time.dimension? standard = some (Pi.single "s" 1) :=
    dimension?_irreducible standard_indexed Builtin.second_mem rfl legible_second rfl
  have physical : ¬IsCurrency (Pi.single "m" 1) := by
    rintro ⟨c, currency, same⟩
    have spelled : ['m'] = [c] := (congrArg String.toList (single same)).trans (String.toList_singleton c)
    cases spelled
    cases currency
  rw [ofDimension, if_neg physical, all, List.find?_cons_of_neg, List.find?_cons_of_pos]
  · simpa using metre
  · simp only [second, decide_eq_true_iff, Option.some_inj]
    exact fun same => absurd (single same) (by decide)

/-- `x` metres, with or without a prefix. -/
def metres (x : Float) (pre : Option (Prefix Float)) : Quantity Float :=
  ⟨x, [⟨Builtin.metre, pre, 1⟩]⟩

theorem metres_covers (x : Float) (pre : Option (Prefix Float)) : standard.Covers (metres x pre).units :=
  covers_singleton.mpr Builtin.metre_mem

/-- Kilometres, metres and the metres that kilometres are converted to are lengths. -/
theorem standard_classify_metres :
    standard.Covers (metres 3 (some Builtin.kilo)).units ∧
      classify standard (metres 3 (some Builtin.kilo)) = .ok (some length) ∧
      classify standard (metres 5 none) = .ok (some length) ∧
      ∃ p, standard.convert (metres 3 (some Builtin.kilo)) "m" = .ok p ∧
        classify standard p = .ok (some length) := by
  have covers := metres_covers 3 (some Builtin.kilo)
  obtain ⟨s, first⟩ := isOk_iff.mp
    (show (standard.reduce (metres 3 (some Builtin.kilo))).isOk = true by decide +kernel)
  obtain ⟨t, second⟩ := isOk_iff.mp (show (standard.reduce (metres 5 none)).isOk = true by decide +kernel)
  obtain ⟨c, third⟩ := isOk_iff.mp (show (standard.reduce (metres 1 none)).isOk = true by decide +kernel)
  have dimension : ∀ x pre, standard.dimensionOf (metres x pre) = Pi.single "m" 1 := by
    intro x pre
    have unit : standard.dimension Builtin.metre = Pi.single "m" 1 := dimension_irreducible Builtin.metre_mem rfl
    rw [dimensionOf, metres, weigh_singleton, ← unit]
    exact one_smul Int _
  have near : Scalar.isNear Scalar.defaultTolerance (metres 1 none).amount Scalar.one = true := by
    decide +kernel
  obtain ⟨kind, compatible, converted⟩ := standard_classify covers
  have kilometres : classify standard (metres 3 (some Builtin.kilo)) = .ok (some length) := by
    rw [kind, first, dimension, ofDimension_metre]
    rfl
  have same : standard.compatible (metres 3 (some Builtin.kilo)) (metres 5 none) = .ok true :=
    (compatible_iff standard_indexed standard_acyclic covers (metres_covers 5 none) first second).mpr
      ((dimension _ _).trans (dimension _ _).symm)
  obtain ⟨p, met⟩ := (convert_iff standard_indexed standard_acyclic covers first builtin_parse_metre near third).mpr
    ((dimension _ _).trans (dimension _ _).symm)
  exact ⟨covers, kilometres, (compatible _ (metres_covers 5 none) same).trans kilometres, p, met,
    (converted "m" p met).trans kilometres⟩

end Metrology.Kind
