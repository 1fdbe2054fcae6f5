import Mathlib.Tactic.MkIffOfInductiveProp
import Metrology.Proofs.Expression.Grammar
import Metrology.Proofs.Registry.Builtin

/-!
How readings are spelled. A token is the spelling of its reading, and where no two readings have one
spelling each is found by its own (`reading?_spelling`). The built-in units are of this kind; all but the
currencies are spelled in the letters of unit symbols.
-/

namespace Metrology

variable {α : Type}

/-- Prefix and symbol. -/
def Reading.spelling (x : Reading α) : String :=
  (x.pre.map (·.symbol)).getD "" ++ x.base.symbol

namespace Registry
open Expression

variable {us : List (BaseUnit α)} {token : String} {x : Reading α}

/-- The unit is listed and accepts the prefix. -/
def Offers (us : List (BaseUnit α)) (x : Reading α) : Prop :=
  x.base ∈ us ∧ ∀ p ∈ x.pre, p ∈ x.base.prefixes

/-- No two readings have one spelling. -/
def Unambiguous (us : List (BaseUnit α)) : Prop :=
  ∀ x y, Offers us x → Offers us y → x.spelling = y.spelling → x = y

theorem spelling_of_reading? (h : reading? us token = some x) : x.spelling = token := by
  rcases Option.or_eq_some_iff.mp h with bare | ⟨-, prefixed⟩
  · obtain ⟨u, found, rfl⟩ := Option.map_eq_some_iff.mp bare
    have symbol := List.find?_some found
    simpa [Reading.spelling] using symbol
  · obtain ⟨u, -, found⟩ := List.exists_of_findSome?_eq_some prefixed
    obtain ⟨p, chosen, rfl⟩ := Option.map_eq_some_iff.mp found
    have spelled := List.find?_some chosen
    simpa [Reading.spelling] using spelled

theorem exists_reading? (h : Offers us x) : ∃ y, reading? us x.spelling = some y := by
  obtain ⟨u, pre⟩ := x
  obtain ⟨member, accepted⟩ := h
  rw [← Option.isSome_iff_exists, reading?, Option.isSome_or, Bool.or_eq_true]
  cases pre with
  | none =>
    left
    rw [bareReading?, Option.isSome_map, List.find?_isSome]
    exact ⟨u, member, by simp [Reading.spelling]⟩
  | some p =>
    right
    rw [List.findSome?_isSome_iff]
    refine ⟨u, member, ?_⟩
    rw [prefixedReading?, Option.isSome_map, List.find?_isSome]
    exact ⟨p, accepted p rfl, by simp [Reading.spelling]⟩

theorem reading?_spelling (unambiguous : Unambiguous us) (h : Offers us x) :
    reading? us x.spelling = some x := by
  obtain ⟨y, found⟩ := exists_reading? h
  rw [found, unambiguous y x (mem_of_reading? found) h (spelling_of_reading? found)]

/-! ### The built-in units -/

/-- The signs of degrees, minutes and seconds. -/
def angleMarks : List Char := ['°', '′', '″']

/-- What the spellings of a built-in unit look like. -/
@[mk_iff]
structure Legible (u : BaseUnit α) : Prop where
  nonempty : u.symbol.toList ≠ []
  named : ∀ p ∈ u.prefixes, p.symbol.toList ≠ []
  letters : u.isCurrency = false → ∀ cs ∈ [] :: u.prefixes.map (·.symbol.toList),
    (cs ++ u.symbol.toList).length ≤ 6 ∧ (cs ++ u.symbol.toList).all isSymbolChar = true
  marks : u.symbol.toList.getLast?.any (angleMarks.contains ·) = true →
    u.symbol.toList.length = 1 ∧ u.prefixes.isEmpty = true

instance (u : BaseUnit α) : Decidable (Legible u) :=
  decidable_of_iff _ (legible_iff u).symm

/-- Where `v` ends in `u`, with another symbol, prefixes of `u` and of `v` make different spellings. -/
def Apart (u v : BaseUnit α) : Prop :=
  u.symbol.toList <:+ v.symbol.toList → u.symbol ≠ v.symbol → ∀ p ∈ u.prefixes,
    p.symbol.toList ++ u.symbol.toList ≠ v.symbol.toList ∧
      ∀ p' ∈ v.prefixes, p.symbol.toList ++ u.symbol.toList ≠ p'.symbol.toList ++ v.symbol.toList

instance (u v : BaseUnit α) : Decidable (Apart u v) := by
  unfold Apart
  infer_instance

theorem standard_units : standard.units = numbered (Builtin.units : List (BaseUnit Float)) :=
  builtin_units

theorem standard_legible : ∀ u ∈ standard.units, Legible u := by
  rw [standard_units]
  decide +kernel

theorem standard_apart :
    ∀ u ∈ standard.units, u.prefixes.isEmpty = false → ∀ v ∈ standard.units,
      -- Most pairs part here, at little cost.
      u.symbol.toList.getLast?.map Char.toNat = v.symbol.toList.getLast?.map Char.toNat → Apart u v := by
  rw [standard_units]
  decide +kernel

theorem toList_spelling (x : Reading α) :
    x.spelling.toList = (x.pre.map (·.symbol.toList)).getD [] ++ x.base.symbol.toList := by
  unfold Reading.spelling
  rw [String.toList_append]
  cases x.pre <;> rfl

theorem standard_eq_of_suffix {x y : Reading Float} (hx : Offers standard.units x) (hy : Offers standard.units y)
    (same : x.spelling = y.spelling) (ends : x.base.symbol.toList <:+ y.base.symbol.toList) :
    x.base.symbol = y.base.symbol := by
  obtain ⟨u, pre⟩ := x
  obtain ⟨v, pre'⟩ := y
  obtain ⟨memberU, acceptedU⟩ := hx
  obtain ⟨memberV, acceptedV⟩ := hy
  have lists := congrArg String.toList same
  rw [toList_spelling, toList_spelling] at lists
  by_contra different
  cases pre with
  | none =>
    have length : u.symbol.toList.length = _ + v.symbol.toList.length :=
      (congrArg List.length lists).trans List.length_append
    have bound : u.symbol.toList.length ≤ v.symbol.toList.length := ends.length_le
    have equal : u.symbol.toList.length = v.symbol.toList.length := by omega
    exact different (String.toList_inj.mp (ends.eq_of_length equal))
  | some p =>
    have prefixes : u.prefixes.isEmpty = false := List.isEmpty_eq_false_iff.mpr (List.ne_nil_of_mem (acceptedU p rfl))
    have last : u.symbol.toList.getLast? = v.symbol.toList.getLast? := by
      obtain ⟨front, whole⟩ := ends
      rw [← whole, List.getLast?_append_of_ne_nil _ (standard_legible u memberU).nonempty]
    have apart : Apart u v := standard_apart u memberU prefixes v memberV (congrArg _ last)
    obtain ⟨bare, prefixed⟩ := apart ends different p (acceptedU p rfl)
    cases pre' with
    | none => exact bare lists
    | some p' => exact prefixed p' (acceptedV p' rfl) lists

theorem standard_unambiguous : Unambiguous standard.units := by
  intro x y hx hy same
  have symbols : x.base.symbol = y.base.symbol := by
    have lists := congrArg String.toList same
    rw [toList_spelling, toList_spelling] at lists
    have left : x.base.symbol.toList <:+ y.spelling.toList := by
      rw [toList_spelling, ← lists]
      exact List.suffix_append ..
    have right : y.base.symbol.toList <:+ y.spelling.toList := by
      rw [toList_spelling]
      exact List.suffix_append ..
    rcases List.suffix_or_suffix_of_suffix left right with ends | ends
    · exact standard_eq_of_suffix hx hy same ends
    · exact (standard_eq_of_suffix hy hx same.symm ends).symm
  have bases : x.base = y.base := standard_indexed.eq_of_symbol hx.1 hy.1 symbols
  obtain ⟨u, pre⟩ := x
  obtain ⟨v, pre'⟩ := y
  obtain rfl : u = v := bases
  have prefixes : (pre.map (·.symbol)).getD "" = (pre'.map (·.symbol)).getD "" := by
    have lists := congrArg String.toList same
    rw [← String.toList_inj]
    simpa [Reading.spelling] using lists
  have named : ∀ p ∈ u.prefixes, p.symbol ≠ "" := by
    intro p accepted
    have some := (standard_legible u hx.1).named p accepted
    exact fun empty => some (by rw [empty]; rfl)
  cases pre with
  | none =>
    cases pre' with
    | none => rfl
    | some p' => exact absurd prefixes.symm (named p' (hy.2 p' rfl))
  | some p =>
    cases pre' with
    | none => exact absurd prefixes (named p (hx.2 p rfl))
    | some p' =>
      have known := builtin_prefixes hx.1
      rw [Prefix.eq_of_symbol (known (hx.2 p rfl)) (known (hy.2 p' rfl)) prefixes]

theorem standard_reading {x : Reading Float} (h : Offers standard.units x) : standard.readings[x.spelling]? = some x := by
  rw [standard_indexed.getElem?_readings]
  exact reading?_spelling standard_unambiguous h

theorem standard_isSpelling {x : Reading Float} (h : Offers standard.units x) (other : x.base.isCurrency = false) :
    IsSpelling x.spelling.toList := by
  have legible := standard_legible x.base h.1
  rw [toList_spelling]
  have listed : (x.pre.map (·.symbol.toList)).getD [] ∈ [] :: x.base.prefixes.map (·.symbol.toList) := by
    cases chosen : x.pre with
    | none => simp
    | some p => exact List.mem_cons_of_mem _ (List.mem_map_of_mem (h.2 p chosen))
  obtain ⟨short, letters⟩ := legible.letters other _ listed
  exact ⟨by simp [legible.nonempty], List.all_eq_true.mp letters, short⟩

theorem standard_token_of_mark {token : String} {x : Reading Float} {c : Char} (read : standard.readings[token]? = some x)
    (last : x.base.symbol.toList.getLast? = some c) (mark : c ∈ angleMarks) : token.toList = [c] := by
  rw [standard_indexed.getElem?_readings] at read
  obtain ⟨member, accepted⟩ := mem_of_reading? read
  obtain ⟨single, bare⟩ := (standard_legible x.base member).marks (by simpa [last] using mark)
  obtain ⟨d, alone⟩ := List.length_eq_one_iff.mp single
  obtain rfl : d = c := by simpa [alone] using last
  have unprefixed : x.pre = none := by
    rw [Option.eq_none_iff_forall_ne_some]
    intro p chosen
    have listed := accepted p chosen
    rw [List.isEmpty_iff.mp bare] at listed
    cases listed
  rw [← spelling_of_reading? read, toList_spelling, alone, unprefixed]
  rfl

theorem standard_attaches {token : String} {x : Reading Float} (read : standard.readings[token]? = some x)
    (attaches : x.base.attachesToNumeral = true) : ∃ c ∈ angleMarks, token.toList = [c] := by
  simp only [BaseUnit.attachesToNumeral, Bool.or_eq_true, beq_iff_eq] at attaches
  rcases attaches with (symbol | symbol) | symbol
  · exact ⟨'°', by decide, standard_token_of_mark read (by rw [symbol]; rfl) (by decide)⟩
  · exact ⟨'′', by decide, standard_token_of_mark read (by rw [symbol]; rfl) (by decide)⟩
  · exact ⟨'″', by decide, standard_token_of_mark read (by rw [symbol]; rfl) (by decide)⟩

theorem standard_mark {cs : List Char} {c : Char} (mark : c ∈ angleMarks) (some : cs ≠ []) :
    standard.readings[String.ofList (cs ++ [c])]? = none := by
  rw [Option.eq_none_iff_forall_ne_some]
  intro x read
  have found := read
  rw [standard_indexed.getElem?_readings] at found
  have lists := congrArg String.toList (spelling_of_reading? found)
  rw [toList_spelling, String.toList_ofList] at lists
  have nonempty := (standard_legible x.base (mem_of_reading? found).1).nonempty
  have last : x.base.symbol.toList.getLast? = .some c := by
    have ends := congrArg List.getLast? lists
    rw [List.getLast?_append_of_ne_nil _ nonempty] at ends
    simpa using ends
  have token := standard_token_of_mark read last mark
  rw [String.toList_ofList] at token
  have length := congrArg List.length token
  simp at length
  exact some length

end Registry

end Metrology
