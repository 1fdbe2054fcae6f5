import Metrology.Proofs.Registry.PhysicalText

/-!
Round trips over the built-in units. `standard_parse_ascii_tidy`: the plain text of a tidy quantity without
money is read back as the quantity. `standard_reparse_physical`: so is that of any physical text, kept as it
was written, exactly when no divisors are stranded in front of its first other factor.
-/

namespace Metrology.Registry
open Text Expression Outcome Quantity

variable {r : Registry Float} {q : Quantity Float} {u : Factor Float} {text : String} {amount : Option (List Char)}
  {tokens : List Token} {t : Token}

/-! ### Tidy quantities -/

theorem standard_readable (member : u.base ∈ standard.units) (accepted : ∀ p ∈ u.pre, p ∈ u.base.prefixes)
    (other : u.base.isCurrency = false) (exponent : u.exponent.val ≠ -2147483648) : u.Readable standard := by
  have offers : Offers standard.units ⟨u.base, u.pre⟩ := ⟨member, accepted⟩
  have spelling : u.spelling = Reading.spelling ⟨u.base, u.pre⟩ := rfl
  refine ⟨?_, ?_, exponent⟩
  · rw [spelling]
    exact standard_isSpelling offers other
  · rw [spelling]
    exact standard_reading offers

theorem not_stranded_of_tidy (tidy : Tidy q.units) : ¬Stranded q.units := by
  rintro ⟨⟨u, head, negative⟩, v, member, nonneg⟩
  have ordered := tidy.ordered
  obtain ⟨us, units⟩ := List.head?_eq_some_iff.mp head
  rw [units] at ordered member
  rcases List.mem_cons.mp member with rfl | later
  · omega
  · rcases (List.pairwise_cons.mp ordered).1 v later with ⟨before, -⟩ | ⟨signs, -⟩
    · omega
    · omega

/-- A tidy quantity without money is read back from its plain text. -/
theorem standard_parse_ascii_tidy (tidy : Tidy q.units) (covers : standard.Covers q.units)
    (accepted : ∀ u ∈ q.units, ∀ p ∈ u.pre, p ∈ u.base.prefixes) (finite : q.amount.isFinite = true)
    (some : q.units ≠ []) (other : ∀ u ∈ q.units, u.base.isCurrency = false)
    (exponents : ∀ u ∈ q.units, u.exponent.val ≠ -2147483648) : standard.parse q.ascii = .ok q := by
  refine standard_parse_ascii finite some ?_ (not_stranded_of_tidy tidy)
  intro u member
  exact standard_readable (covers u member) (accepted u member) (other u member) (exponents u member)

namespace Builtin

def second : BaseUnit Float := { irreducible "s" "second" metric with order := 3 }

def kilo : Prefix Float := ⟨"k", 1e3⟩

theorem second_mem : second ∈ standard.units := by
  rw [standard_units]
  exact mem_numbered (i := 2) rfl

theorem kilo_accepted : kilo ∈ metre.prefixes :=
  List.mem_of_getElem? (i := 9) rfl

end Builtin

/-- No square kilometres per second, from below. -/
def negligibleArea : Quantity Float :=
  ⟨-0.0, [⟨Builtin.metre, some Builtin.kilo, .squared⟩, ⟨Builtin.second, none, .reciprocal⟩]⟩

theorem negligibleArea_tidy : Tidy negligibleArea.units := by
  refine ⟨?_, ?_, ?_⟩
  · have symbols : negligibleArea.units.map (·.base.symbol) = ["m", "s"] := rfl
    rw [symbols]
    decide
  · simp [negligibleArea]
  · simp [negligibleArea, Factor.Before]

theorem negligibleArea_covers : standard.Covers negligibleArea.units :=
  covers_cons.mpr ⟨Builtin.metre_mem, covers_singleton.mpr Builtin.second_mem⟩

theorem negligibleArea_accepted : ∀ u ∈ negligibleArea.units, ∀ p ∈ u.pre, p ∈ u.base.prefixes := by
  simp [negligibleArea, Builtin.kilo_accepted]

theorem negligibleArea_other : ∀ u ∈ negligibleArea.units, u.base.isCurrency = false := by
  rw [negligibleArea, List.forall_mem_cons, List.forall_mem_singleton]
  exact ⟨rfl, rfl⟩

theorem negligibleArea_exponents : ∀ u ∈ negligibleArea.units, u.exponent.val ≠ -2147483648 := by
  simp [negligibleArea]

theorem standard_parse_ascii_tidy_sample :
    negligibleArea.ascii = "-0 km2/s" ∧ standard.parse negligibleArea.ascii = .ok negligibleArea :=
  ⟨rfl, standard_parse_ascii_tidy negligibleArea_tidy negligibleArea_covers negligibleArea_accepted rfl
    (by simp [negligibleArea]) negligibleArea_other negligibleArea_exponents⟩

/-! ### Physical texts -/

theorem readable_of_resolveToken (indexed : r.Indexed) (legible : IsSpelling t.spelling)
    (resolved : r.resolveToken t = .ok u) (exponent : u.exponent.val ≠ -2147483648) : u.Readable r := by
  obtain ⟨⟨base, pre⟩, read, rfl, rfl⟩ := resolveToken_ok resolved
  have found := read
  rw [indexed.getElem?_readings] at found
  have spelling : u.spelling = String.ofList t.spelling := spelling_of_reading? found
  refine ⟨?_, ?_, exponent⟩
  · rwa [spelling, String.toList_ofList]
  · rw [spelling, read]

theorem readable_of_parse (indexed : r.Indexed) (derives : Derives (trim text.toList) (.physical amount tokens))
    (parsed : r.parse text = .ok q) (exponents : ∀ u ∈ q.units, u.exponent.val ≠ -2147483648) :
    q.units ≠ [] ∧ ∀ u ∈ q.units, u.Readable r := by
  have scanned := scan?_eq_some_iff.mpr derives
  obtain ⟨some, legible⟩ := derives.isPhysical.isSpelling
  rw [parse] at parsed
  simp only [scanned] at parsed
  obtain ⟨x, -, parsed⟩ := bind_ok parsed
  obtain ⟨units, resolved, parsed⟩ := bind_ok parsed
  rw [pure_ok parsed] at exponents ⊢
  refine ⟨?_, ?_⟩
  · rintro rfl
    cases mapM_ok resolved
    exact some rfl
  · intro u member
    obtain ⟨t, present, found⟩ := mem_of_mapM_ok resolved member
    exact readable_of_resolveToken indexed (legible t present) found (exponents u member)

/-- A physical text is read back from its plain form, unless divisors are stranded there. -/
theorem standard_reparse_physical (derives : Derives (trim text.toList) (.physical amount tokens))
    (parsed : standard.parse text = .ok q) (finite : q.amount.isFinite = true)
    (exponents : ∀ u ∈ q.units, u.exponent.val ≠ -2147483648) :
    (¬Stranded q.units → standard.parse q.ascii = .ok q) ∧
      (Stranded q.units → ∃ e, standard.parse q.ascii = .error e) := by
  obtain ⟨some, readable⟩ := readable_of_parse standard_indexed derives parsed exponents
  exact ⟨standard_parse_ascii finite some readable, standard_parse_ascii_stranded finite readable⟩

theorem negligibleArea_readable : ∀ u ∈ negligibleArea.units, u.Readable standard := fun u member =>
  standard_readable (negligibleArea_covers u member) (negligibleArea_accepted u member) (negligibleArea_other u member)
    (negligibleArea_exponents u member)

/-- The tokens of `-0km2*s-1`. -/
def negligibleTokens : List Token :=
  [⟨.times, ['k', 'm'], some .squared⟩, ⟨.times, ['s'], some .reciprocal⟩]

theorem negligibleArea_scanned :
    scan? "-0km2*s-1".toList = some (.physical (some ['-', '0']) negligibleTokens) ∧
      Decimal.readFloat? ['-', '0'] = some (-0.0) := by
  decide +kernel

theorem parse_negligibleArea : standard.parse "-0km2*s-1" = .ok negligibleArea := by
  have readable := negligibleArea_readable
  simp only [negligibleArea, List.forall_mem_cons] at readable
  obtain ⟨area, second, -⟩ := readable
  have resolved : negligibleTokens.mapM standard.resolveToken = .ok negligibleArea.units :=
    mapM_of_forall₂ (.cons (area.resolveToken rfl) (.cons (second.resolveToken rfl) .nil))
  obtain ⟨scanned, read⟩ := negligibleArea_scanned
  rw [parse_of_scan rfl scanned, evaluate_physical read resolved]
  rfl

/-- The quantity of `1/s*m`, as it stands. -/
def metrePerSecond : Quantity Float :=
  ⟨1, [⟨Builtin.second, none, .reciprocal⟩, ⟨Builtin.metre, none, 1⟩]⟩

def metrePerSecondTokens : List Token :=
  [⟨.per, ['s'], none⟩, ⟨.times, ['m'], none⟩]

theorem metrePerSecond_scanned :
    (scan? "1/s*m".toList = some (.physical (some ['1']) metrePerSecondTokens) ∧ Decimal.readFloat? ['1'] = some 1) ∧
      metrePerSecond.ascii = "1/s m" ∧ scan? (trim "1/s m".toList) = none := by
  decide +kernel

theorem metrePerSecond_exponents : ∀ u ∈ metrePerSecond.units, u.exponent.val ≠ -2147483648 := by
  rw [metrePerSecond, List.forall_mem_cons, List.forall_mem_singleton]
  exact ⟨by decide, by decide⟩

theorem parse_metrePerSecond : standard.parse "1/s*m" = .ok metrePerSecond := by
  have second : (⟨Builtin.second, none, .reciprocal⟩ : Factor Float).Readable standard :=
    standard_readable Builtin.second_mem (by simp) rfl (by simp)
  have metre : (⟨Builtin.metre, none, 1⟩ : Factor Float).Readable standard :=
    standard_readable Builtin.metre_mem (by simp) rfl (by decide)
  have resolved : metrePerSecondTokens.mapM standard.resolveToken = .ok metrePerSecond.units :=
    mapM_of_forall₂ (.cons (second.resolveToken_per rfl rfl) (.cons (metre.resolveToken rfl) .nil))
  obtain ⟨scanned, read⟩ := metrePerSecond_scanned.1
  rw [parse_of_scan rfl scanned, evaluate_physical read resolved]
  rfl

theorem metrePerSecond_stranded : Stranded metrePerSecond.units :=
  ⟨⟨_, rfl, by decide⟩, ⟨Builtin.metre, none, 1⟩, by simp [metrePerSecond], by decide⟩

theorem standard_reparse_physical_samples :
    (standard.parse "-0km2*s-1" = .ok negligibleArea ∧ standard.parse negligibleArea.ascii = .ok negligibleArea) ∧
      standard.parse "1/s*m" = .ok metrePerSecond ∧ ∃ e, standard.parse metrePerSecond.ascii = .error e := by
  have area : Derives (trim "-0km2*s-1".toList) _ := scan?_eq_some_iff.mp negligibleArea_scanned.1
  have speed : Derives (trim "1/s*m".toList) _ := scan?_eq_some_iff.mp metrePerSecond_scanned.1.1
  refine ⟨⟨parse_negligibleArea, ?_⟩, parse_metrePerSecond, ?_⟩
  · exact (standard_reparse_physical area parse_negligibleArea rfl negligibleArea_exponents).1
      (not_stranded_of_tidy negligibleArea_tidy)
  · exact (standard_reparse_physical speed parse_metrePerSecond rfl metrePerSecond_exponents).2
      metrePerSecond_stranded

/-- Nothing joins a factor to the divisor before it. -/
theorem metrePerSecond_not_reparsed :
    Derives (trim "1/s*m".toList) (.physical (some ['1']) metrePerSecondTokens) ∧
      standard.parse "1/s*m" = .ok metrePerSecond ∧ metrePerSecond.amount.isFinite = true ∧
      (∀ u ∈ metrePerSecond.units, u.exponent.val ≠ -2147483648) ∧ metrePerSecond.ascii = "1/s m" ∧
      ¬∃ q, standard.parse metrePerSecond.ascii = .ok q := by
  obtain ⟨⟨derived, -⟩, written, scanned⟩ := metrePerSecond_scanned
  refine ⟨scan?_eq_some_iff.mp derived, parse_metrePerSecond, rfl, metrePerSecond_exponents, written, ?_⟩
  rw [written, parse_unscanned scanned]
  rintro ⟨q, ⟨⟩⟩

end Metrology.Registry
