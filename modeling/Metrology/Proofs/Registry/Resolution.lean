import Metrology.Proofs.Registry.Reachable

/-!
How a token is read. `Denotes` is the rule of the tie: a bare symbol wins over every prefixed
spelling, and of those the first unit wins, with the first of its prefixes. Main statement:
`resolve_run`, by which a registry answers every token by the rule after any history.
-/

namespace Metrology.Registry

variable {α : Type} {r start : Registry α} {units : List (BaseUnit α)} {token : String} {u : BaseUnit α}
  {p : Prefix α}

/-! ### The rule -/

/-- `u` with the prefix `p` spells the token, no unit before `u` does with any of its prefixes, and `u`
does not with a prefix before `p`. -/
structure FirstSpelling (units : List (BaseUnit α)) (token : String) (u : BaseUnit α) (p : Prefix α) : Prop where
  spells : p.symbol ++ u.symbol = token
  firstUnit : ∃ before after, units = before ++ u :: after ∧
    ∀ v ∈ before, ∀ p' ∈ v.prefixes, p'.symbol ++ v.symbol ≠ token
  firstPrefix : ∃ before after, u.prefixes = before ++ p :: after ∧
    ∀ p' ∈ before, p'.symbol ++ u.symbol ≠ token

/-- The unit and the prefix that a token stands for. -/
inductive Denotes (units : List (BaseUnit α)) (token : String) : BaseUnit α → Option (Prefix α) → Prop where
  | bare {u : BaseUnit α} : u ∈ units → u.symbol = token → Denotes units token u none
  | prefixed {u : BaseUnit α} {p : Prefix α} : (∀ v ∈ units, v.symbol ≠ token) →
      FirstSpelling units token u p → Denotes units token u (some p)

/-! ### The search follows the rule -/

theorem bareReading?_eq_none : bareReading? units token = none ↔ ∀ u ∈ units, u.symbol ≠ token := by
  simp [bareReading?]

theorem prefixedReading?_eq_none :
    prefixedReading? token u = none ↔ ∀ p ∈ u.prefixes, p.symbol ++ u.symbol ≠ token := by
  simp [prefixedReading?]

theorem prefixedReading?_eq_some {reading : Reading α} :
    prefixedReading? token u = some reading ↔
      ∃ p, reading = ⟨u, some p⟩ ∧ p.symbol ++ u.symbol = token ∧
        ∃ before after, u.prefixes = before ++ p :: after ∧ ∀ p' ∈ before, p'.symbol ++ u.symbol ≠ token := by
  rw [prefixedReading?, Option.map_eq_some_iff]
  refine exists_congr fun p => ?_
  rw [List.find?_eq_some_iff_append]
  simp only [decide_eq_true_eq, Bool.not_eq_true', decide_eq_false_iff_not]
  rw [and_comm, eq_comm]

theorem firstSpelling_iff :
    units.findSome? (prefixedReading? token) = some ⟨u, some p⟩ ↔ FirstSpelling units token u p := by
  rw [List.findSome?_eq_some_iff]
  constructor
  · rintro ⟨before, v, after, split, found, earlier⟩
    obtain ⟨p', same, spells, firstPrefix⟩ := prefixedReading?_eq_some.mp found
    cases same
    exact ⟨spells, ⟨before, after, split, fun w member => prefixedReading?_eq_none.mp (earlier w member)⟩, firstPrefix⟩
  · rintro ⟨spells, ⟨before, after, split, earlier⟩, firstPrefix⟩
    exact ⟨before, u, after, split, prefixedReading?_eq_some.mpr ⟨p, rfl, spells, firstPrefix⟩,
      fun w member => prefixedReading?_eq_none.mpr (earlier w member)⟩

theorem reading?_iff (distinct : (units.map (·.symbol)).Nodup) {reading : Reading α} :
    reading? units token = some reading ↔ Denotes units token reading.base reading.pre := by
  obtain ⟨u, pre⟩ := reading
  constructor
  · intro found
    rcases Option.or_eq_some_iff.mp found with bare | ⟨absent, spelled⟩
    · obtain ⟨v, first, same⟩ := Option.map_eq_some_iff.mp bare
      cases same
      exact .bare (List.mem_of_find?_eq_some first) (by simpa using List.find?_some first)
    · obtain ⟨v, -, here⟩ := List.exists_of_findSome?_eq_some spelled
      obtain ⟨p, same, -⟩ := prefixedReading?_eq_some.mp here
      cases same
      exact .prefixed (bareReading?_eq_none.mp absent) (firstSpelling_iff.mp spelled)
  · intro denotes
    cases denotes with
    | bare member symbol =>
      subst symbol
      exact reading?_symbol distinct member
    | prefixed absent first =>
      exact Option.or_eq_some_iff.mpr (.inr ⟨bareReading?_eq_none.mpr absent, firstSpelling_iff.mpr first⟩)

theorem reading?_eq_none : reading? units token = none ↔ ∀ u ∈ units, token ∉ u.spellings := by
  rw [reading?, Option.or_eq_none_iff, bareReading?_eq_none, List.findSome?_eq_none_iff, ← forall₂_and]
  refine forall₂_congr fun u _ => ?_
  rw [prefixedReading?_eq_none, BaseUnit.spellings, List.mem_cons, not_or, List.mem_map]
  refine and_congr ⟨Ne.symm, Ne.symm⟩ ⟨?_, ?_⟩
  · rintro other ⟨p, listed, same⟩
    exact other p listed same
  · intro other p listed same
    exact other ⟨p, listed, same⟩

/-! ### What an indexed registry answers -/

theorem get?_iff (numbered : r.Numbered) : r.get? token = some u ↔ u ∈ r.units ∧ u.symbol = token := by
  rw [get?, numbered.positions, Option.bind_eq_some_iff]
  simp only [List.findIdx?_eq_some_iff_getElem, decide_eq_true_eq]
  constructor
  · rintro ⟨i, ⟨bound, symbol, -⟩, here⟩
    rw [List.getElem?_eq_getElem bound, Option.some_inj] at here
    subst here
    exact ⟨List.getElem_mem bound, symbol⟩
  · rintro ⟨member, symbol⟩
    obtain ⟨i, found⟩ : ∃ i, r.units.findIdx? (·.symbol = token) = some i := by
      rw [← Option.isSome_iff_exists, List.findIdx?_isSome, List.any_eq_true]
      exact ⟨u, member, decide_eq_true symbol⟩
    have first := List.findIdx?_eq_some_iff_getElem.mp found
    simp only [decide_eq_true_eq] at first
    obtain ⟨bound, same, earlier⟩ := first
    refine ⟨i, ⟨bound, same, earlier⟩, ?_⟩
    rw [List.getElem?_eq_getElem bound,
      numbered.eq_of_symbol (List.getElem_mem bound) member (same.trans symbol.symm)]

theorem resolve_iff (indexed : r.Indexed) {e : Exponent} {w : Factor α} :
    r.resolve token e = .ok w ↔ Denotes r.units token w.base w.pre ∧ w.exponent = e := by
  have read : r.readings[token]? = some ⟨w.base, w.pre⟩ ↔ Denotes r.units token w.base w.pre := by
    rw [indexed.getElem?_readings, reading?_iff indexed.distinct]
  rw [← read, resolve]
  cases r.readings[token]? with
  | none => exact ⟨nofun, fun answered => nomatch answered.1⟩
  | some reading =>
    obtain ⟨base, pre, exponent⟩ := w
    obtain ⟨base', pre'⟩ := reading
    simp only [Except.ok.injEq, Factor.mk.injEq, Option.some.injEq, Reading.mk.injEq, and_assoc, eq_comm (a := e)]

theorem resolve_error {e : Exponent} {error : Error} :
    r.resolve token e = .error error ↔ error = .unknownUnit token ∧ r.readings[token]? = none := by
  unfold resolve
  cases r.readings[token]? with
  | none => simp [eq_comm]
  | some reading => simp

theorem resolve_error_iff (indexed : r.Indexed) {e : Exponent} {error : Error} :
    r.resolve token e = .error error ↔ error = .unknownUnit token ∧ ∀ u ∈ r.units, token ∉ u.spellings := by
  rw [resolve_error, indexed.getElem?_readings, reading?_eq_none]

/-! ### Histories -/

section History

variable [Scalar α]

/-- After any history every token is read by the rule of the tie, a token that nothing spells is an error
of the class of formats, and a token read without a prefix is the unit that the registry has under it. -/
theorem resolve_run (origin : start = empty ∨ build = .ok start) (commands : List (Command α)) (token : String)
    (e : Exponent) :
    (∀ w, (start.run commands).resolve token e = .ok w ↔
        Denotes (start.run commands).units token w.base w.pre ∧ w.exponent = e) ∧
      (∀ error, (start.run commands).resolve token e = .error error ↔
        error = .unknownUnit token ∧ ∀ u ∈ (start.run commands).units, token ∉ u.spellings) ∧
      (Error.unknownUnit token).code = .format ∧
      ∀ u, (start.run commands).get? token = some u ↔
        (start.run commands).resolve token e = .ok ⟨u, none, e⟩ := by
  have reachable : start.Reachable := by
    rcases origin with rfl | built
    · exact .empty
    · exact .build built
  have indexed : (start.run commands).Indexed := (reachable.run commands).indexed
  refine ⟨fun _ => resolve_iff indexed, fun _ => resolve_error_iff indexed, rfl, fun u => ?_⟩
  rw [get?_iff indexed.toNumbered, resolve_iff indexed]
  constructor
  · rintro ⟨member, symbol⟩
    exact ⟨.bare member symbol, rfl⟩
  · rintro ⟨denotes, -⟩
    cases denotes with
    | bare member symbol => exact ⟨member, symbol⟩

/-- `u` with the prefixes named. -/
def accepting (symbol : String) (prefixes : List String) : BaseUnit α :=
  { symbol, name := symbol, acceptedPrefixes := some (Prefix.among prefixes) }

/-- `dam` is `d` and `am` or `da` and `m`, and `dm` is taken as a symbol; the second `m` is refused. -/
def ambiguous : List (Command α) :=
  [.register (accepting "am" ["d"]), .register (accepting "m" ["d", "da"]), .register (accepting "dm" []),
    .register (accepting "m" [])]

theorem units_ambiguous : ((empty : Registry α).run ambiguous).units =
    [{ accepting "am" ["d"] with order := 1 }, { accepting "m" ["d", "da"] with order := 2 },
      { accepting "dm" [] with order := 3 }] := by
  simp [run, ambiguous, execute, Command.apply, register, insert, accepting, empty, reindex, nextOrder, size]

theorem resolve_run_ambiguous :
    (empty.run ambiguous).resolve "dam" 1 =
        .ok (⟨{ accepting "am" ["d"] with order := 1 }, some ⟨"d", 1e-1⟩, 1⟩ : Factor Float) ∧
      (empty.run ambiguous).get? "dm" = some ({ accepting "dm" [] with order := 3 } : BaseUnit Float) ∧
      (empty.run ambiguous).resolve "dm" 1 =
        .ok (⟨{ accepting "dm" [] with order := 3 }, none, 1⟩ : Factor Float) ∧
      ((empty : Registry Float).run ambiguous).resolve "km" 1 = .error (.unknownUnit "km") := by
  obtain ⟨dam, -, -, -⟩ := resolve_run (α := Float) (.inl rfl) ambiguous "dam" 1
  obtain ⟨-, -, -, dm⟩ := resolve_run (α := Float) (.inl rfl) ambiguous "dm" 1
  obtain ⟨-, km, -, -⟩ := resolve_run (α := Float) (.inl rfl) ambiguous "km" 1
  have taken : (empty.run ambiguous).get? "dm" = some ({ accepting "dm" [] with order := 3 } : BaseUnit Float) := by
    rw [get?_iff (Reachable.empty.run ambiguous).indexed.toNumbered, units_ambiguous]
    exact ⟨by simp, rfl⟩
  refine ⟨(dam _).mpr ⟨.prefixed ?_ ⟨rfl, ⟨[], _, units_ambiguous, by simp⟩, ⟨[], [], rfl, by simp⟩⟩, rfl⟩, taken,
    (dm _).mp taken, (km _).mpr ⟨rfl, ?_⟩⟩
  · rw [units_ambiguous]
    simp [accepting]
  · rw [units_ambiguous]
    decide +kernel

end History

end Metrology.Registry
