import Metrology.Proofs.Prefix
import Metrology.Proofs.Registry.Definition

/-!
The registry of the built-in units, over any numbers. Its symbols are distinct, so it can be built,
and its definitions are acyclic over the doubles and over the rationals.
-/

namespace Metrology.Registry

variable {α : Type} [Scalar α]

/-- The registry of the built-in units over the numbers `α`. -/
def builtin (α : Type) [Scalar α] : Registry α :=
  (build : Except Error (Registry α)).toOption.getD empty

abbrev exact : Registry Rat := builtin Rat

namespace Builtin

def symbols : List String :=
  ["m", "g", "s", "A", "K", "mol", "cd", "Hz", "rad", "sr", "N", "Pa", "J", "W", "C", "V", "F", "Ω",
    "S", "Wb", "T", "H", "°C", "lm", "lx", "Bq", "Gy", "Sv", "kat", "min", "h", "d", "AU", "°", "′",
    "″", "ha", "L", "t", "Da", "eV", "w", "mon", "a", "ly", "pc", "cal", "bar", "atm", "in", "ft",
    "yd", "mi", "ac", "pt", "qt", "gal", "oz", "lb", "st", "ton", "lbf", "psi", "USpt", "USqt",
    "USgal", "tn", "°F", "b", "B", "$", "€", "£", "¥", "₹", "₩", "฿", "₽"]

theorem map_symbol_units : (units : List (BaseUnit α)).map (·.symbol) = symbols := rfl

/-- One number for each text. -/
def code (s : String) : Nat :=
  s.toList.foldl (fun n c => 2097152 * n + c.toNat) 0

theorem symbols_distinct : symbols.Nodup := by
  -- Numbers are cheaper to compare than texts.
  have codes : (symbols.map code).Nodup := by decide +kernel
  exact codes.of_map

/-- Definitions name irreducible units and units that stand before, and no scale with an offset. -/
def Descends (units : List (BaseUnit α)) : Prop :=
  ∀ u ∈ units, ∀ metric ∈ u.definition.metric?, ∀ s ∈ spellings metric, ∀ reading ∈ reading? units s,
    (reading.base.isReducible = false ∨ reading.base.order < u.order) ∧
      reading.base.definition.offsetScale?.isNone = true

instance (units : List (BaseUnit α)) : Decidable (Descends units) := by
  unfold Descends
  infer_instance

theorem descends_numbered :
    Descends (numbered (units : List (BaseUnit Float))) ∧ Descends (numbered (units : List (BaseUnit Rat))) := by
  decide +kernel

end Builtin

theorem build_builtin :
    (build : Except Error (Registry α)) = .ok (builtin α) ∧
      (builtin α).units = numbered (Builtin.units : List (BaseUnit α)) := by
  have distinct : ((Builtin.units : List (BaseUnit α)).map (·.symbol)).Nodup := by
    rw [Builtin.map_symbol_units]
    exact Builtin.symbols_distinct
  obtain ⟨r, built, units⟩ := ofUnits_ok distinct
  have same : builtin α = r := by rw [builtin, build, built]; rfl
  exact ⟨by rw [same]; exact built, by rw [same, units]⟩

theorem builtin_units : (builtin α).units = numbered (Builtin.units : List (BaseUnit α)) :=
  build_builtin.2

theorem builtin_reachable : (builtin α).Reachable :=
  .build build_builtin.1

theorem builtin_indexed : (builtin α).Indexed :=
  builtin_reachable.indexed

/-! ### Single units -/

namespace Builtin

def metre : BaseUnit α := { irreducible "m" "meter" metric with order := 1 }

def gram : BaseUnit α := { irreducible "g" "gram" metric with order := 2 }

def kelvin : BaseUnit α := { irreducible "K" "kelvin" metric with order := 5 }

def celsius : BaseUnit α :=
  { affine "°C" "Celsius" "K" Scale.celsiusToKelvin Scale.kelvinToCelsius with order := 23 }

theorem metre_mem : metre ∈ (builtin α).units := by
  rw [builtin_units]
  exact mem_numbered (i := 0) rfl

theorem gram_mem : gram ∈ (builtin α).units := by
  rw [builtin_units]
  exact mem_numbered (i := 1) rfl

theorem kelvin_mem : kelvin ∈ (builtin α).units := by
  rw [builtin_units]
  exact mem_numbered (i := 4) rfl

theorem celsius_mem : celsius ∈ (builtin α).units := by
  rw [builtin_units]
  exact mem_numbered (i := 22) rfl

theorem prefixes_subset : ∀ u ∈ (units : List (BaseUnit α)), u.prefixes ⊆ Prefix.all := by
  have bare : ([] : List (Prefix α)) ⊆ Prefix.all := List.nil_subset _
  have data : (Prefix.binary ++ Prefix.largeMetric : List (Prefix α)) ⊆ Prefix.all :=
    List.append_subset.mpr ⟨Prefix.binary_subset, Prefix.largeMetric_subset⟩
  simp only [units, siBase, siDerived, siAccepted, common, imperial, usCustomary, information, currencies,
    irreducible, linear, affine, metric, large, ofData, ofMoney, List.forall_mem_append, List.forall_mem_cons,
    BaseUnit.prefixes, Option.getD_some, Option.getD_none, bare, data, Prefix.metric_subset,
    Prefix.largeMetric_subset, Prefix.among_subset, List.not_mem_nil, false_implies, implies_true, and_self]

theorem affine_metrics :
    (units : List (BaseUnit α)).filterMap (·.definition.offsetScale?.map (·.metric)) = ["K", "K"] :=
  rfl

end Builtin

theorem builtin_prefixes {u : BaseUnit α} (member : u ∈ (builtin α).units) : u.prefixes ⊆ Prefix.all := by
  rw [builtin_units] at member
  obtain ⟨v, listed, same⟩ := exists_of_mem_numbered member
  rw [same]
  exact Builtin.prefixes_subset v listed

theorem builtin_affine_metric {u : BaseUnit α} {scale : OffsetScale α} (member : u ∈ (builtin α).units)
    (affine : u.definition = .affine scale) : scale.metric = "K" := by
  rw [builtin_units] at member
  obtain ⟨v, listed, same⟩ := exists_of_mem_numbered member
  have definition : v.definition = .affine scale := by rw [← affine, same]
  have metric : scale.metric ∈
      (Builtin.units : List (BaseUnit α)).filterMap (·.definition.offsetScale?.map (·.metric)) :=
    List.mem_filterMap.mpr ⟨v, listed, by rw [definition]; rfl⟩
  rw [Builtin.affine_metrics] at metric
  simpa using metric

theorem legible_metre : Expression.IsSpelling "m".toList :=
  ⟨by simp, by simp [isSymbolChar], by simp⟩

theorem builtin_parse_metre : (builtin α).parse "m" = .ok ⟨Scalar.one, [⟨Builtin.metre, none, 1⟩]⟩ :=
  parse_symbol (u := Builtin.metre) builtin_indexed Builtin.metre_mem legible_metre

theorem builtin_parse_kelvin : (builtin α).parse "K" = .ok ⟨Scalar.one, [⟨Builtin.kelvin, none, 1⟩]⟩ := by
  have legible : Expression.IsSpelling "K".toList := ⟨by simp, by simp [isSymbolChar], by simp⟩
  exact parse_symbol (u := Builtin.kelvin) builtin_indexed Builtin.kelvin_mem legible

/-! ### Acyclic definitions -/

theorem builtin_acyclic (descends : Builtin.Descends (numbered (Builtin.units : List (BaseUnit α)))) :
    (builtin α).Acyclic := by
  have indexed : (builtin α).Indexed := builtin_indexed
  refine acyclic_of_rank indexed (fun u => if u.isReducible then u.order else 0) ?_
  rintro u member v ⟨metric, defined, s, present, reading, read, rfl⟩
  have positive : 1 ≤ u.order := by
    have numbered : u.order ∈ (builtin α).units.map (·.order) := List.mem_map_of_mem member
    rw [indexed.orders, List.mem_range'_1] at numbered
    exact numbered.1
  have reducible : u.isReducible = true := by
    cases kind : u.definition <;>
      simp_all [BaseUnit.isReducible, Definition.isReducible, Definition.metric?]
  rw [indexed.getElem?_readings, builtin_units] at read
  rw [builtin_units] at member
  have lower := (descends u member metric defined s present reading read).1
  rw [if_pos reducible]
  split
  · rename_i deeper
    exact lower.resolve_left (by rw [deeper]; exact Bool.noConfusion)
  · exact positive

theorem builtin_plain (descends : Builtin.Descends (numbered (Builtin.units : List (BaseUnit α)))) :
    (builtin α).Plain := by
  rintro u member v ⟨metric, defined, s, present, reading, read, rfl⟩
  rw [builtin_indexed.getElem?_readings, builtin_units] at read
  rw [builtin_units] at member
  exact Option.isNone_iff_eq_none.mp (descends u member metric defined s present reading read).2

theorem standard_indexed : standard.Indexed :=
  builtin_indexed

theorem standard_acyclic : standard.Acyclic :=
  builtin_acyclic Builtin.descends_numbered.1

theorem standard_plain : standard.Plain :=
  builtin_plain Builtin.descends_numbered.1

theorem exact_acyclic : exact.Acyclic :=
  builtin_acyclic Builtin.descends_numbered.2

theorem exact_plain : exact.Plain :=
  builtin_plain Builtin.descends_numbered.2

end Metrology.Registry
