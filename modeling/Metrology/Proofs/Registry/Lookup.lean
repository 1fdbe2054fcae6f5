import Mathlib.Data.List.Nodup
import Metrology.Registry.Basic

/-!
What a table of readings holds. `reading?` searches the units themselves: a bare symbol first, then
the first unit, and its first prefix, that spell the token. `getElem?_readingsOf` says that the
index built by `readingsOf` answers every token as this search does.
-/

namespace Metrology.Registry

variable {α : Type}

def bareReading? (units : List (BaseUnit α)) (token : String) : Option (Reading α) :=
  (units.find? (·.symbol = token)).map (⟨·, none⟩)

/-- The reading of `token` as a prefix and the symbol of `u`. -/
def prefixedReading? (token : String) (u : BaseUnit α) : Option (Reading α) :=
  (u.prefixes.find? fun p => p.symbol ++ u.symbol = token).map (⟨u, some ·⟩)

/-- The reading of a token by search. -/
def reading? (units : List (BaseUnit α)) (token : String) : Option (Reading α) :=
  (bareReading? units token).or (units.findSome? (prefixedReading? token))

/-! ### The index against the search -/

theorem getElem?_bare {units : List (BaseUnit α)} (distinct : (units.map (·.symbol)).Nodup)
    (table : Std.HashMap String (Reading α)) (token : String) :
    (units.foldl (fun table u => table.insert u.symbol ⟨u, none⟩) table)[token]? =
      (bareReading? units token).or table[token]? := by
  induction units generalizing table with
  | nil => rfl
  | cons u us ih =>
    rw [List.map_cons, List.nodup_cons] at distinct
    rw [List.foldl_cons, ih distinct.2, Std.HashMap.getElem?_insert]
    by_cases same : u.symbol = token
    · have absent : us.find? (·.symbol = token) = none := by
        rw [List.find?_eq_none]
        intro v member equal
        exact distinct.1 (List.mem_map.mpr ⟨v, member, by simpa [same] using equal⟩)
      simp [bareReading?, same, absent]
    · simp [bareReading?, same]

theorem getElem?_prefixed (u : BaseUnit α) (prefixes : List (Prefix α))
    (table : Std.HashMap String (Reading α)) (token : String) :
    (prefixes.foldl (fun table p => table.insertIfNew (p.symbol ++ u.symbol) ⟨u, some p⟩) table)[token]? =
      table[token]?.or
        ((prefixes.find? fun p => p.symbol ++ u.symbol = token).map (⟨u, some ·⟩)) := by
  induction prefixes generalizing table with
  | nil => simp
  | cons p ps ih =>
    rw [List.foldl_cons, ih, Std.HashMap.getElem?_insertIfNew]
    by_cases same : p.symbol ++ u.symbol = token
    · subst same
      cases taken : table[p.symbol ++ u.symbol]? with
      | none =>
        have absent : p.symbol ++ u.symbol ∉ table := by
          rw [Std.HashMap.mem_iff_isSome_getElem?, taken]
          exact Bool.false_ne_true
        simp [absent]
      | some x =>
        have present : p.symbol ++ u.symbol ∈ table :=
          Std.HashMap.mem_iff_isSome_getElem?.mpr (by rw [taken]; rfl)
        simp [present]
    · simp [same]

theorem getElem?_allPrefixed (units : List (BaseUnit α))
    (table : Std.HashMap String (Reading α)) (token : String) :
    (units.foldl (fun table u =>
        u.prefixes.foldl (fun table p => table.insertIfNew (p.symbol ++ u.symbol) ⟨u, some p⟩) table)
      table)[token]? = table[token]?.or (units.findSome? (prefixedReading? token)) := by
  induction units generalizing table with
  | nil => simp
  | cons u us ih =>
    rw [List.foldl_cons, ih, getElem?_prefixed, List.findSome?_cons, Option.or_assoc]
    congr 1
    rw [show (u.prefixes.find? fun p => p.symbol ++ u.symbol = token).map (⟨u, some ·⟩) =
      prefixedReading? token u from rfl]
    cases prefixedReading? token u <;> rfl

theorem getElem?_readingsOf {units : List (BaseUnit α)} (distinct : (units.map (·.symbol)).Nodup)
    (token : String) : (readingsOf units)[token]? = reading? units token := by
  unfold readingsOf
  rw [getElem?_allPrefixed, getElem?_bare distinct, Std.HashMap.getElem?_empty, Option.or_none]
  rfl

theorem reading?_symbol {units : List (BaseUnit α)} (distinct : (units.map (·.symbol)).Nodup)
    {u : BaseUnit α} (member : u ∈ units) : reading? units u.symbol = some ⟨u, none⟩ := by
  obtain ⟨v, found⟩ : ∃ v, units.find? (·.symbol = u.symbol) = some v := by
    rw [← Option.isSome_iff_exists, List.find?_isSome]
    exact ⟨u, member, decide_eq_true rfl⟩
  have symbol : v.symbol = u.symbol := by simpa using List.find?_some found
  have same : v = u := List.inj_on_of_nodup_map distinct (List.mem_of_find?_eq_some found) member symbol
  rw [reading?, bareReading?, found, same]
  rfl

theorem mem_of_reading? {units : List (BaseUnit α)} {token : String} {reading : Reading α}
    (h : reading? units token = some reading) :
    reading.base ∈ units ∧ ∀ p ∈ reading.pre, p ∈ reading.base.prefixes := by
  rcases Option.or_eq_some_iff.mp h with bare | ⟨-, prefixed⟩
  · obtain ⟨u, found, rfl⟩ := Option.map_eq_some_iff.mp bare
    exact ⟨List.mem_of_find?_eq_some found, by simp⟩
  · obtain ⟨u, member, found⟩ := List.exists_of_findSome?_eq_some prefixed
    obtain ⟨p, present, rfl⟩ := Option.map_eq_some_iff.mp found
    refine ⟨member, ?_⟩
    intro p' equal
    obtain rfl := Option.mem_some.mp equal
    exact List.mem_of_find?_eq_some present

end Metrology.Registry
