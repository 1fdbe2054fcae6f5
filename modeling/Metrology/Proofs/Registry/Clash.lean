import Mathlib.Data.List.Duplicate
import Mathlib.Data.List.Pairwise
import Mathlib.Data.String.Basic
import Std.Data.HashSet.Lemmas
import Std.Data.TreeSet.Lemmas
import Metrology.Proofs.Registry.Change
import Metrology.Proofs.Registry.RoundTrip

/-!
Spellings that several readings compete for. A `Slot` is the symbol of a unit or one position in the list of
its prefixes, and a spelling is `Contested` when two slots have it. Main statement: `clashes_unambiguous`, by
which the clashes are the contested spellings, and a registry without any reads every unit and prefix by their
own spelling, in whatever order the units were registered.
-/

namespace Metrology.Registry
open List (Duplicate)

variable {α : Type} {r r' : Registry α} {units us : List (BaseUnit α)} {u v : BaseUnit α} {s token : String}
  {x : Reading α} {xs : List String}

/-! ### Slots -/

structure Slot where
  /-- The place of the unit in its table. -/
  unit : Nat
  /-- The place of the prefix among those of the unit, none for the symbol by itself. -/
  position : Option Nat
  deriving DecidableEq

def Slot.spelling? (units : List (BaseUnit α)) (slot : Slot) : Option String :=
  units[slot.unit]?.bind fun u =>
    match slot.position with
    | none => some u.symbol
    | some j => u.prefixes[j]?.map (·.symbol ++ u.symbol)

/-- Two slots have the spelling. -/
def Contested (units : List (BaseUnit α)) (s : String) : Prop :=
  ∃ a b : Slot, a ≠ b ∧ a.spelling? units = some s ∧ b.spelling? units = some s

def slotsAt (i : Nat) (u : BaseUnit α) : List Slot :=
  ⟨i, none⟩ :: (List.range u.prefixes.length).map (⟨i, some ·⟩)

/-- The slots in the order of the spellings. -/
def slots (units : List (BaseUnit α)) : List Slot :=
  units.zipIdx.flatMap fun (u, i) => slotsAt i u

theorem mem_slotsAt {a : Slot} {i : Nat} :
    a ∈ slotsAt i u ↔ a.unit = i ∧ ∀ j ∈ a.position, j < u.prefixes.length := by
  obtain ⟨unit, position⟩ := a
  cases position <;> simp [slotsAt, eq_comm, and_comm]

theorem mem_slots {a : Slot} : a ∈ slots units ↔ ∃ s, a.spelling? units = some s := by
  obtain ⟨i, position⟩ := a
  simp only [slots, List.mem_flatMap, Prod.exists, List.mk_mem_zipIdx_iff_getElem?, mem_slotsAt, Slot.spelling?,
    Option.bind_eq_some_iff]
  cases position with
  | none => simp
  | some j =>
    simp only [Option.mem_some_iff, forall_eq', Option.map_eq_some_iff]
    constructor
    · rintro ⟨u, _, here, rfl, bound⟩
      exact ⟨_, u, here, _, List.getElem?_eq_getElem bound, rfl⟩
    · rintro ⟨_, u, here, p, listed, -⟩
      exact ⟨u, i, here, rfl, (List.getElem?_eq_some_iff.mp listed).1⟩

theorem nodup_slots (units : List (BaseUnit α)) : (slots units).Nodup := by
  rw [slots, List.nodup_flatMap]
  refine ⟨?_, ?_⟩
  · rintro ⟨u, i⟩ -
    show (slotsAt i u).Nodup
    rw [slotsAt, List.nodup_cons]
    refine ⟨by simp, List.nodup_range.map ?_⟩
    rintro j k same
    simpa using same
  · have places : (units.zipIdx.map Prod.snd).Nodup := by
      rw [List.zipIdx_map_snd]
      exact List.nodup_range'
    refine (List.pairwise_map.mp places).imp ?_
    rintro ⟨u, i⟩ ⟨v, k⟩ apart a here there
    exact apart ((mem_slotsAt.mp here).1.symm.trans (mem_slotsAt.mp there).1)

theorem map_slotsAt {i : Nat} (here : units[i]? = some u) :
    (slotsAt i u).map (fun a => (a.spelling? units).getD "") = u.spellings := by
  rw [slotsAt, BaseUnit.spellings, List.map_cons, List.map_map]
  refine List.cons_eq_cons.mpr ⟨by simp [Slot.spelling?, here], List.ext_getElem (by simp) ?_⟩
  intro j bound _
  rw [List.length_map, List.length_range] at bound
  simp [Slot.spelling?, here, List.getElem?_eq_getElem bound]

theorem map_slots (units : List (BaseUnit α)) :
    (slots units).map (fun a => (a.spelling? units).getD "") = units.flatMap BaseUnit.spellings := by
  have tables : units.flatMap BaseUnit.spellings = units.zipIdx.flatMap fun entry => entry.1.spellings := by
    rw [← List.zipIdx_map_fst 0 units, List.flatMap_map, List.zipIdx_map_fst]
  rw [slots, List.map_flatMap, tables]
  refine List.flatMap_congr ?_
  rintro ⟨u, i⟩ listed
  exact map_slotsAt (List.mk_mem_zipIdx_iff_getElem?.mp listed)

theorem duplicate_map_iff {β γ : Type} {f : β → γ} {l : List β} (distinct : l.Nodup) {y : γ} :
    Duplicate y (l.map f) ↔ ∃ a ∈ l, ∃ b ∈ l, a ≠ b ∧ f a = y ∧ f b = y := by
  induction l with
  | nil => simp
  | cons c l ih =>
    rw [List.nodup_cons] at distinct
    rw [List.map_cons, List.duplicate_cons_iff, ih distinct.2, List.mem_map]
    constructor
    · rintro (⟨first, b, later, again⟩ | ⟨a, ha, b, hb, rest⟩)
      · refine ⟨c, List.mem_cons_self, b, List.mem_cons_of_mem _ later, ?_, first, again⟩
        rintro rfl
        exact distinct.1 later
      · exact ⟨a, List.mem_cons_of_mem _ ha, b, List.mem_cons_of_mem _ hb, rest⟩
    · rintro ⟨a, ha, b, hb, apart, first, second⟩
      rcases List.mem_cons.mp ha with rfl | here
      · rcases List.mem_cons.mp hb with rfl | there
        · exact absurd rfl apart
        · exact .inl ⟨first, b, there, second⟩
      · rcases List.mem_cons.mp hb with rfl | there
        · exact .inl ⟨second, a, here, first⟩
        · exact .inr ⟨a, here, b, there, apart, first, second⟩

/-- Spellings that come up twice are those of two slots. -/
theorem duplicate_spellings_iff : Duplicate s (units.flatMap BaseUnit.spellings) ↔ Contested units s := by
  have known : ∀ {a : Slot}, a.spelling? units = some s ↔ a ∈ slots units ∧ (a.spelling? units).getD "" = s := by
    intro a
    rw [mem_slots]
    constructor
    · intro here
      exact ⟨⟨s, here⟩, by rw [here]; rfl⟩
    · rintro ⟨⟨t, here⟩, same⟩
      rw [here] at same
      rw [here, ← same]
      rfl
  rw [← map_slots, duplicate_map_iff (nodup_slots units)]
  constructor
  · rintro ⟨a, ha, b, hb, apart, first, second⟩
    exact ⟨a, b, apart, known.mpr ⟨ha, first⟩, known.mpr ⟨hb, second⟩⟩
  · rintro ⟨a, b, apart, first, second⟩
    exact ⟨a, (known.mp first).1, b, (known.mp second).1, apart, (known.mp first).2, (known.mp second).2⟩

/-! ### Clashes in order -/

/-- After `a`, only its own repetitions are lost. -/
theorem mem_cons_dropWhile {a : String} : s ∈ a :: xs.dropWhile (· = a) ↔ s = a ∨ s ∈ xs := by
  conv_rhs => rw [← List.takeWhile_append_dropWhile (p := (· = a)) (l := xs)]
  have run : s ∈ xs.takeWhile (· = a) → s = a := fun member => by simpa using List.mem_takeWhile_imp member
  rw [List.mem_cons, List.mem_append]
  by_cases first : s = a
  · simp only [first, true_or]
  · simp only [first, mt run first, false_or]

theorem mem_repeated (sorted : xs.Pairwise (· ≤ ·)) : s ∈ repeated xs ↔ Duplicate s xs := by
  fun_induction repeated xs with
  | case1 a rest ih =>
    rw [List.duplicate_cons_iff, ← ih (List.pairwise_cons.mp sorted).2]
    rw [mem_cons_dropWhile]
    refine or_congr_left ⟨?_, fun first => first.1.symm⟩
    rintro rfl
    exact ⟨rfl, List.mem_cons_self⟩
  | case2 a b rest apart ih =>
    obtain ⟨least, sorted⟩ := List.pairwise_cons.mp sorted
    rw [ih sorted, List.duplicate_cons_iff (y := a)]
    refine (or_iff_right ?_).symm
    rintro ⟨rfl, later⟩
    -- what stands between `a` and another `a` is `a`
    have above : b ≤ a := by
      rcases List.mem_cons.mp later with rfl | later
      · exact absurd rfl apart
      · exact (List.pairwise_cons.mp sorted).1 a later
    exact apart (le_antisymm (least b List.mem_cons_self) above)
  | case3 xs short =>
    cases xs with
    | nil => simp
    | cons a rest =>
      cases rest with
      | nil => simp
      | cons b rest => exact absurd rfl (short a b rest)

theorem not_mem_dropWhile (least : ∀ t ∈ xs, s ≤ t) (ascending : xs.Pairwise (· < ·)) :
    s ∉ xs.dropWhile (· = s) := by
  cases xs with
  | nil => simp
  | cons t xs =>
    have above : s ∉ xs := fun member =>
      absurd ((least t List.mem_cons_self).trans_lt ((List.pairwise_cons.mp ascending).1 s member)) (lt_irrefl s)
    by_cases same : t = s
    · rw [List.dropWhile_cons_of_pos (by simpa using same)]
      exact fun member => above ((List.dropWhile_sublist _).subset member)
    · rw [List.dropWhile_cons_of_neg (by simpa using same), List.mem_cons, not_or]
      exact ⟨Ne.symm same, above⟩

theorem repeated_pairwise (sorted : xs.Pairwise (· ≤ ·)) : (repeated xs).Pairwise (· < ·) := by
  fun_induction repeated xs with
  | case1 a rest ih =>
    obtain ⟨least, sorted⟩ := List.pairwise_cons.mp sorted
    have bounded : ∀ s ∈ repeated (a :: rest), a ≤ s := fun s member =>
      least s ((mem_repeated sorted).mp member).mem
    refine List.pairwise_cons.mpr ⟨?_, (ih sorted).sublist (List.dropWhile_sublist _)⟩
    intro s member
    refine lt_of_le_of_ne (bounded s ((List.dropWhile_sublist _).subset member)) ?_
    rintro rfl
    exact not_mem_dropWhile bounded (ih sorted) member
  | case2 a b rest apart ih => exact ih (List.pairwise_cons.mp sorted).2
  | case3 xs short => exact .nil

theorem sorted_mergeSort (xs : List String) : (xs.mergeSort fun s t => decide (s ≤ t)).Pairwise (· ≤ ·) := by
  have sorted : (xs.mergeSort fun s t => decide (s ≤ t)).Pairwise fun s t => decide (s ≤ t) = true := by
    refine List.pairwise_mergeSort ?_ ?_ xs
    · simpa using fun a b c => le_trans
    · simpa using le_total
  simpa using sorted

theorem mem_clashes_iff : s ∈ r.clashes ↔ Contested r.units s := by
  rw [clashes, mem_repeated (sorted_mergeSort _), List.duplicate_iff_two_le_count,
    (List.mergeSort_perm _ _).count_eq, ← List.duplicate_iff_two_le_count, duplicate_spellings_iff]

theorem clashes_pairwise (r : Registry α) : r.clashes.Pairwise (· < ·) :=
  repeated_pairwise (sorted_mergeSort _)

theorem clashes_eq_nil_iff : r.clashes = [] ↔ (r.units.flatMap BaseUnit.spellings).Nodup := by
  rw [List.eq_nil_iff_forall_not_mem, List.nodup_iff_forall_not_duplicate]
  exact forall_congr' fun s => not_congr (mem_clashes_iff.trans duplicate_spellings_iff.symm)

/-! ### Clashes in one pass -/

/-- Notes a spelling as seen, and as a clash when it has been seen before. -/
def note (state : Std.HashSet String × Std.TreeSet String) (s : String) : Std.HashSet String × Std.TreeSet String :=
  (state.1.insert s, if state.1.contains s then state.2.insert s else state.2)

/-- The clashes that one pass over the units comes upon. -/
def collected (units : List (BaseUnit α)) : Std.TreeSet String :=
  (units.foldl (fun state u => u.spellings.foldl note state) (∅, ∅)).2

theorem mem_foldl_note (state : Std.HashSet String × Std.TreeSet String) (xs : List String) :
    s ∈ (xs.foldl note state).2 ↔ s ∈ state.2 ∨ (s ∈ state.1 ∧ s ∈ xs) ∨ Duplicate s xs := by
  induction xs generalizing state with
  | nil => simp
  | cons t xs ih =>
    rw [List.foldl_cons, ih, List.duplicate_cons_iff]
    have seen : s ∈ (note state t).1 ↔ t = s ∨ s ∈ state.1 := by simp [note]
    have clash : s ∈ (note state t).2 ↔ (t = s ∧ s ∈ state.1) ∨ s ∈ state.2 := by
      unfold note
      dsimp only
      split
      · rename_i known
        rw [Std.TreeSet.mem_insert, Std.LawfulEqCmp.compare_eq_iff_eq]
        refine or_congr_left ⟨?_, And.left⟩
        rintro rfl
        exact ⟨rfl, known⟩
      · rename_i unknown
        refine (or_iff_right ?_).symm
        rintro ⟨rfl, known⟩
        exact unknown known
    rw [seen, clash, List.mem_cons, eq_comm (a := s)]
    grind

theorem toList_collected (r : Registry α) : (collected r.units).toList = r.clashes := by
  have ascending : (collected r.units).toList.Pairwise (· < ·) :=
    Std.TreeSet.ordered_toList.imp fun before => compare_lt_iff_lt.mp before
  refine ascending.eq_of_mem_iff (clashes_pairwise r) fun s => ?_
  rw [Std.TreeSet.mem_toList, collected, ← List.foldl_flatMap, mem_foldl_note, mem_clashes_iff, duplicate_spellings_iff]
  simp

/-! ### Registries without clashes -/

theorem mem_spellings :
    s ∈ u.spellings ↔ ∃ pre : Option (Prefix α), (∀ p ∈ pre, p ∈ u.prefixes) ∧ Reading.spelling ⟨u, pre⟩ = s := by
  rw [BaseUnit.spellings, List.mem_cons, List.mem_map]
  constructor
  · rintro (rfl | ⟨p, accepted, rfl⟩)
    · exact ⟨none, by simp, by simp [Reading.spelling]⟩
    · exact ⟨some p, by simpa using accepted, rfl⟩
  · rintro ⟨pre, accepted, rfl⟩
    cases pre with
    | none => simp [Reading.spelling]
    | some p => exact .inr ⟨p, accepted p rfl, rfl⟩

theorem unambiguous_of_nodup (distinct : (units.flatMap BaseUnit.spellings).Nodup) : Unambiguous units := by
  obtain ⟨each, apart⟩ := List.nodup_flatMap.mp distinct
  rintro ⟨u, pre⟩ ⟨v, pre'⟩ ⟨member, accepted⟩ ⟨member', accepted'⟩ same
  have bases : u = v := by
    have symmetric : Std.Symm (Function.onFun List.Disjoint (BaseUnit.spellings (α := α))) :=
      ⟨fun _ _ disjoint _ here there => disjoint there here⟩
    by_contra different
    exact apart.forall member member' different (mem_spellings.mpr ⟨pre, accepted, rfl⟩)
      (mem_spellings.mpr ⟨pre', accepted', same.symm⟩)
  subst bases
  obtain ⟨bare, prefixed⟩ := List.nodup_cons.mp (each u member)
  cases pre with
  | none =>
    cases pre' with
    | none => rfl
    | some p' => exact absurd (List.mem_map.mpr ⟨p', accepted' p' rfl, by simpa [Reading.spelling] using same.symm⟩) bare
  | some p =>
    cases pre' with
    | none => exact absurd (List.mem_map.mpr ⟨p, accepted p rfl, by simpa [Reading.spelling] using same⟩) bare
    | some p' => rw [List.inj_on_of_nodup_map prefixed (accepted p rfl) (accepted' p' rfl) same]

/-- Readings with a spelling of their own leave no clash where no unit has a prefix twice. -/
theorem nodup_of_unambiguous (unambiguous : Unambiguous units) (distinct : units.Nodup)
    (listed : ∀ u ∈ units, u.prefixes.Nodup) : (units.flatMap BaseUnit.spellings).Nodup := by
  rw [List.nodup_flatMap]
  refine ⟨?_, distinct.pairwise_of_forall_ne ?_⟩
  · intro u member
    have offers : ∀ p ∈ u.prefixes, Offers units ⟨u, some p⟩ := fun p accepted => ⟨member, by simpa using accepted⟩
    refine List.nodup_cons.mpr ⟨?_, (listed u member).map_on ?_⟩
    · intro clash
      obtain ⟨p, accepted, same⟩ := List.mem_map.mp clash
      have equal := unambiguous ⟨u, some p⟩ ⟨u, none⟩ (offers p accepted) ⟨member, nofun⟩ (by simpa [Reading.spelling] using same)
      cases equal
    · intro p accepted p' accepted' same
      have equal := unambiguous ⟨u, some p⟩ ⟨u, some p'⟩ (offers p accepted) (offers p' accepted') same
      cases equal
      rfl
  · intro u member v member' different s first second
    obtain ⟨pre, accepted, rfl⟩ := mem_spellings.mp first
    obtain ⟨pre', accepted', same⟩ := mem_spellings.mp second
    have equal := unambiguous ⟨u, pre⟩ ⟨v, pre'⟩ ⟨member, accepted⟩ ⟨member', accepted'⟩ same.symm
    exact different (congrArg Reading.base equal)

theorem reading?_iff_offers (unambiguous : Unambiguous units) :
    reading? units token = some x ↔ Offers units x ∧ x.spelling = token := by
  constructor
  · intro found
    exact ⟨mem_of_reading? found, spelling_of_reading? found⟩
  · rintro ⟨offered, rfl⟩
    exact reading?_spelling unambiguous offered

theorem resolve_spelling (indexed : r.Indexed) (unambiguous : Unambiguous r.units) {w : Factor α}
    (member : w.base ∈ r.units) (accepted : ∀ p ∈ w.pre, p ∈ w.base.prefixes) :
    r.resolve w.spelling w.exponent = .ok w := by
  have found : r.readings[w.spelling]? = some ⟨w.base, w.pre⟩ := by
    rw [indexed.getElem?_readings]
    exact reading?_spelling unambiguous (x := ⟨w.base, w.pre⟩) ⟨member, accepted⟩
  rw [resolve, found]

/-! ### Other orders -/

theorem foldlM_register_ok (distinct : (us.map (·.symbol)).Nodup) :
    ∃ r, us.foldlM register empty = .ok r ∧ r.Indexed ∧ r.units = numbered us := by
  induction us using List.reverseRecOn with
  | nil => exact ⟨empty, rfl, empty_indexed, rfl⟩
  | append_singleton us u ih =>
    rw [List.map_append, List.nodup_append] at distinct
    obtain ⟨r, registered, indexed, units⟩ := ih distinct.1
    have free : u.symbol ∉ r.units.map (·.symbol) := by
      rw [units, map_symbol_numbered]
      exact fun taken => distinct.2.2 _ taken _ (by simp) rfl
    obtain ⟨r', added, units'⟩ := register_free indexed.toNumbered free
    have size : r.size = us.length := by rw [Registry.size, units, numbered, List.length_mapIdx]
    refine ⟨r', ?_, register_indexed indexed added, ?_⟩
    · rw [List.foldlM_append, registered]
      exact Outcome.bind_ok_iff.mpr ⟨_, rfl, Outcome.bind_ok_iff.mpr ⟨_, added, rfl⟩⟩
    · rw [units', size, units]
      simp [numbered, List.mapIdx_append]

theorem flatMap_spellings_numbered (us : List (BaseUnit α)) :
    (numbered us).flatMap BaseUnit.spellings = us.flatMap BaseUnit.spellings := by
  have each : (numbered us).map BaseUnit.spellings = us.map BaseUnit.spellings :=
    List.ext_getElem (by simp [numbered]) (by simp [numbered, BaseUnit.spellings, BaseUnit.prefixes])
  rw [List.flatMap_def, each, ← List.flatMap_def]

/-- The units of a registry without clashes, registered anew in any order, read every token as it does. -/
theorem resolve_reordered (indexed : r.Indexed) (clear : r.clashes = []) (perm : us.Perm r.units) :
    ∃ r', us.foldlM register empty = .ok r' ∧ ∀ token e,
      (∀ w, r.resolve token e = .ok w → ∃ n, r'.resolve token e = .ok { w with base := { w.base with order := n } }) ∧
        ∀ error, r.resolve token e = .error error → r'.resolve token e = .error error := by
  have spellings := clashes_eq_nil_iff.mp clear
  have symbols : (us.map (·.symbol)).Nodup := (perm.map _).nodup_iff.mpr indexed.distinct
  obtain ⟨r', registered, indexed', units⟩ := foldlM_register_ok symbols
  have unambiguous : Unambiguous r'.units := by
    refine unambiguous_of_nodup ?_
    rw [units, flatMap_spellings_numbered]
    exact (perm.flatMap_right _).nodup_iff.mpr spellings
  refine ⟨r', registered, fun token e => ⟨?_, ?_⟩⟩
  · intro w resolved
    obtain ⟨x, read, rfl⟩ := resolve_ok resolved
    rw [indexed.getElem?_readings] at read
    obtain ⟨⟨member, accepted⟩, rfl⟩ := (reading?_iff_offers (unambiguous_of_nodup spellings)).mp read
    obtain ⟨i, here⟩ := List.getElem?_of_mem (perm.mem_iff.mpr member)
    refine ⟨i + 1, resolve_spelling indexed' unambiguous (w := ⟨{ x.base with order := i + 1 }, x.pre, e⟩) ?_ accepted⟩
    rw [units]
    exact mem_numbered here
  · intro error refused
    obtain ⟨rfl, unspelled⟩ := (resolve_error_iff indexed).mp refused
    refine (resolve_error_iff indexed').mpr ⟨rfl, ?_⟩
    intro u member
    rw [units] at member
    obtain ⟨v, listed, same⟩ := exists_of_mem_numbered member
    rw [same]
    exact unspelled v (perm.mem_iff.mp listed)

/-- The clashes of a registry are the spellings of two slots or more, as one pass over the units collects them.
Where there are none every unit with every prefix that it accepts is what its spelling stands for, and the units
read each token as before when they are registered anew in any other order. -/
theorem clashes_unambiguous [Scalar α] (reachable : r.Reachable) :
    (∀ s, s ∈ r.clashes ↔ Contested r.units s) ∧
      r.clashes = (collected r.units).toList ∧
      (r.clashes = [] →
        (∀ u ∈ r.units, ∀ pre : Option (Prefix α), (∀ p ∈ pre, p ∈ u.prefixes) → ∀ e,
          r.resolve (Factor.spelling ⟨u, pre, e⟩) e = .ok ⟨u, pre, e⟩) ∧
        ∀ us : List (BaseUnit α), us.Perm r.units → ∃ r', us.foldlM register empty = .ok r' ∧ ∀ token e,
          (∀ w, r.resolve token e = .ok w →
            ∃ n, r'.resolve token e = .ok { w with base := { w.base with order := n } }) ∧
          ∀ error, r.resolve token e = .error error → r'.resolve token e = .error error) := by
  refine ⟨fun s => mem_clashes_iff, (toList_collected r).symm, fun clear => ⟨?_, ?_⟩⟩
  · intro u member pre accepted e
    exact resolve_spelling reachable.indexed (unambiguous_of_nodup (clashes_eq_nil_iff.mp clear)) (w := ⟨u, pre, e⟩)
      member accepted
  · intro us perm
    exact resolve_reordered reachable.indexed clear perm

theorem standard_clashes : standard.clashes = [] := by
  have symbols : ∀ u ∈ standard.units, (u.prefixes.map (·.symbol)).Nodup := by
    rw [standard_units]
    decide +kernel
  exact clashes_eq_nil_iff.mpr (nodup_of_unambiguous standard_unambiguous standard_indexed.distinct.of_map
    fun u member => (symbols u member).of_map)

/-- `dam` is `d` and `am` or `da` and `m`; the built-in units have no clash, and no order of them makes one. -/
theorem clashes_unambiguous_samples :
    ("dam" ∈ ((empty : Registry Float).run ambiguous).clashes ∧ "m" ∉ ((empty : Registry Float).run ambiguous).clashes) ∧
      standard.clashes = [] ∧
      (∀ e, standard.resolve "km" e = .ok ⟨Builtin.metre, some Builtin.kilo, e⟩) ∧
      ∃ r', standard.units.reverse.foldlM register empty = .ok r' ∧
        ∀ e, ∃ n, r'.resolve "km" e = .ok ⟨{ Builtin.metre with order := n }, some Builtin.kilo, e⟩ := by
  obtain ⟨contested, -, -⟩ := clashes_unambiguous (α := Float) (Reachable.empty.run ambiguous)
  obtain ⟨-, -, clear⟩ := clashes_unambiguous (α := Float) builtin_reachable
  obtain ⟨spelled, reordered⟩ := clear standard_clashes
  have kilometre : ∀ e, standard.resolve "km" e = .ok ⟨Builtin.metre, some Builtin.kilo, e⟩ :=
    spelled Builtin.metre Builtin.metre_mem (some Builtin.kilo) (by simpa using Builtin.kilo_accepted)
  obtain ⟨r', registered, same⟩ := reordered _ (List.reverse_perm _)
  refine ⟨⟨(contested "dam").mpr ⟨⟨0, some 0⟩, ⟨1, some 1⟩, by decide, ?_, ?_⟩, ?_⟩, standard_clashes, kilometre, r', registered,
    fun e => (same "km" e).1 _ (kilometre e)⟩
  · rw [units_ambiguous]
    rfl
  · rw [units_ambiguous]
    rfl
  · rw [contested, ← duplicate_spellings_iff, List.duplicate_iff_two_le_count, units_ambiguous]
    decide +kernel

end Metrology.Registry
