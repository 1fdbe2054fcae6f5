import Metrology.Proofs.Reduction.Standard
import Metrology.Proofs.Registry.Change
import Metrology.Proofs.Registry.Spelling

/-!
What a new unit changes. A text is read through the readings of its tokens (`parse_congr`), and reduction
consults a registry for the definitions it comes upon and for nothing else (`reduce_congr`). A new unit
takes no reading from a token other than its own symbol (`readings_register`). Main statement:
`register_conservative`.
-/

namespace Metrology.Registry
open Outcome Quantity

variable {α : Type} [Scalar α] {r r' : Registry α} {q t start : Quantity α} {u v w : Factor α}
  {b c : BaseUnit α} {us vs : List (Factor α)} {x y : α} {token text : String} {e : Exponent}

/-! ### A text is read through its tokens -/

omit [Scalar α] in
theorem resolve_congr (same : r.readings[token]? = r'.readings[token]?) :
    r.resolve token e = r'.resolve token e := by
  rw [resolve, resolve, same]

omit [Scalar α] in
theorem resolveToken_congr {t : Token}
    (same : r.readings[String.ofList t.spelling]? = r'.readings[String.ofList t.spelling]?) :
    r.resolveToken t = r'.resolveToken t := by
  rw [resolveToken, resolveToken, resolve_congr same]

omit [Scalar α] in
theorem resolveTokens_congr {tokens : List Token}
    (same : ∀ s ∈ tokens.map (String.ofList ·.spelling), r.readings[s]? = r'.readings[s]?) :
    tokens.mapM r.resolveToken = tokens.mapM r'.resolveToken := by
  induction tokens with
  | nil => rfl
  | cons t tokens ih =>
    rw [List.map_cons, List.forall_mem_cons] at same
    rw [List.mapM_cons, List.mapM_cons, resolveToken_congr same.1, ih same.2]

omit [Scalar α] in
theorem resolveCurrency_congr {symbol : Char} {letter : Option Char}
    (same : r.readings[String.singleton symbol]? = r'.readings[String.singleton symbol]?) :
    r.resolveCurrency symbol letter = r'.resolveCurrency symbol letter := by
  rw [resolveCurrency, resolveCurrency, resolve_congr same]

theorem evaluate_congr {expression : Expression}
    (same : ∀ s ∈ expression.spellings, r.readings[s]? = r'.readings[s]?) :
    r.evaluate expression = r'.evaluate expression := by
  cases expression with
  | money negative symbol amount letter tokens =>
    have listed := List.forall_mem_cons.mp same
    rw [evaluate, evaluate, resolveCurrency_congr listed.1, resolveTokens_congr listed.2]
  | physical amount tokens => rw [evaluate, evaluate, resolveTokens_congr same]

/-- Registries that read the tokens of a text alike read the text alike. -/
theorem parse_congr (same : ∀ s ∈ spellings text, r.readings[s]? = r'.readings[s]?) :
    r.parse text = r'.parse text := by
  unfold parse
  unfold spellings at same
  cases scanned : Expression.scan? (Text.trim text.toList) with
  | none => simp only [scanned]
  | some expression =>
    rw [scanned] at same
    simp only [scanned]
    exact evaluate_congr same

omit [Scalar α] in
theorem readings_of_resolveTokens {tokens : List Token} (h : tokens.mapM r.resolveToken = .ok us) :
    ∀ s ∈ tokens.map (String.ofList ·.spelling), ∃ reading, r.readings[s]? = some reading := by
  intro s listed
  obtain ⟨t, member, rfl⟩ := List.mem_map.mp listed
  obtain ⟨w, resolved⟩ := ok_of_mem_mapM h member
  obtain ⟨reading, read, -⟩ := resolveToken_ok resolved
  exact ⟨reading, read⟩

/-- Every token of a text that is read stands for a unit. -/
theorem readings_of_parse (h : r.parse text = .ok q) :
    ∀ s ∈ spellings text, ∃ reading, r.readings[s]? = some reading := by
  unfold parse at h
  unfold spellings
  cases scanned : Expression.scan? (Text.trim text.toList) with
  | none => exact fun _ listed => absurd listed List.not_mem_nil
  | some expression =>
    simp only [scanned] at h
    cases expression with
    | money negative symbol amount letter tokens =>
      obtain ⟨_, -, h⟩ := bind_ok h
      obtain ⟨currency, coined, h⟩ := bind_ok h
      obtain ⟨units, resolved, -⟩ := bind_ok h
      obtain ⟨reading, read, -⟩ := resolveCurrency_ok coined
      exact List.forall_mem_cons.mpr ⟨⟨reading, read⟩, readings_of_resolveTokens resolved⟩
    | physical amount tokens =>
      obtain ⟨_, -, h⟩ := bind_ok h
      obtain ⟨units, resolved, -⟩ := bind_ok h
      exact readings_of_resolveTokens resolved

/-! ### Reduction consults the definitions it comes upon -/

/-- The units that the reduction of `q` comes upon: its own, and those that definitions lead to. -/
def Meets (r : Registry α) (q : Quantity α) (b : BaseUnit α) : Prop :=
  ∃ u ∈ q.units, Relation.ReflTransGen r.Depends u.base b

/-- Units among which every definition is read alike, with what these definitions lead to. -/
structure ReadAlike (r r' : Registry α) (S : BaseUnit α → Prop) : Prop where
  closed : ∀ b c, S b → r.Depends b c → S c
  same : ∀ b, S b → ∀ metric ∈ b.definition.metric?, r.parse metric = r'.parse metric

variable {S : BaseUnit α → Prop}

theorem ReadAlike.expand (alike : ReadAlike r r' S) (inside : S u.base) : r.expand x u = r'.expand x u := by
  unfold Registry.expand
  cases defined : u.base.definition.metric? with
  | none => rfl
  | some metric => simp only [alike.same u.base inside metric defined]

theorem ReadAlike.inside_expand (alike : ReadAlike r r' S) (inside : S u.base) (h : r.expand x u = .ok (y, vs)) :
    ∀ w ∈ vs, S w.base := by
  rcases expand_ok h with ⟨-, -, rfl⟩ | ⟨metric, q, power, defined, parsed, raised, -, rfl⟩
  · rwa [List.forall_mem_singleton]
  · intro w member
    obtain ⟨v, origin, base, -⟩ := pow_origin (q := scaledDefinition u q) raised member
    rw [base]
    exact alike.closed _ _ inside (depends_of_parse defined parsed origin)

theorem ReadAlike.expandAll (alike : ReadAlike r r' S) (inside : ∀ u ∈ us, S u.base) :
    r.expandAll x us = r'.expandAll x us := by
  induction us generalizing x with
  | nil => rfl
  | cons u us ih =>
    rw [List.forall_mem_cons] at inside
    simp only [Registry.expandAll, alike.expand inside.1, ih inside.2]

theorem ReadAlike.inside_expandAll (alike : ReadAlike r r' S) (inside : ∀ u ∈ us, S u.base)
    (h : r.expandAll x us = .ok (y, vs)) : ∀ w ∈ vs, S w.base := by
  induction us generalizing x vs with
  | nil =>
    cases h
    exact inside
  | cons u us ih =>
    rw [List.forall_mem_cons] at inside
    obtain ⟨z, front, back, first, rest, rfl⟩ := expandAll_cons_ok h
    exact List.forall_mem_append.mpr ⟨alike.inside_expand inside.1 first, ih inside.2 rest⟩

theorem ReadAlike.pass (alike : ReadAlike r r' S) (inside : ∀ u ∈ q.units, S u.base) : r.pass q = r'.pass q := by
  unfold Registry.pass
  cases lone : q.offsetScale? with
  | none => rw [alike.expandAll inside]
  | some scale =>
    obtain ⟨u, units, -, -, affine⟩ := offsetScale?_ok lone
    have member : u ∈ q.units := by
      rw [units]
      exact List.mem_singleton_self u
    have defined : u.base.definition.metric? = some scale.metric := by
      rw [affine]
      rfl
    simp only [alike.same u.base (inside u member) scale.metric defined]

theorem ReadAlike.inside_pass (alike : ReadAlike r r' S) (inside : ∀ u ∈ q.units, S u.base)
    (h : r.pass q = .ok t) : ∀ w ∈ t.units, S w.base := by
  obtain ⟨x, y, us, expanded, tidied⟩ := expandAll_of_pass h
  intro w member
  obtain ⟨v, origin, base, -⟩ := tidy_origin tidied member
  rw [base]
  exact alike.inside_expandAll inside expanded v origin

theorem ReadAlike.passes (alike : ReadAlike r r' S) (inside : ∀ u ∈ q.units, S u.base) (n : Nat) :
    r.passes start n q = r'.passes start n q := by
  induction n generalizing q with
  | zero => rfl
  | succ n ih =>
    by_cases canonical : IsCanonical q
    · rw [passes_of_canonical canonical, passes_of_canonical canonical]
    · rw [passes_unfinished canonical, passes_unfinished canonical, ← alike.pass inside]
      exact bind_congr_ok fun next passed => ih (alike.inside_pass inside passed)

/-- Registries that read alike the definitions that reduction comes upon reduce alike. -/
theorem reduce_congr
    (same : ∀ b, r.Meets q b → ∀ metric ∈ b.definition.metric?, r.parse metric = r'.parse metric) :
    r.reduce q = r'.reduce q := by
  have alike : ReadAlike r r' (r.Meets q) := by
    refine ⟨?_, same⟩
    rintro b c ⟨u, member, path⟩ edge
    exact ⟨u, member, path.tail edge⟩
  refine bind_congr_ok fun t tidied => ?_
  have inside : ∀ u ∈ t.units, r.Meets q u.base := by
    intro u member
    obtain ⟨v, origin, base, -⟩ := tidy_origin tidied member
    exact ⟨v, origin, base ▸ .refl⟩
  rw [alike.passes inside]

/-! ### A new unit -/

omit [Scalar α] in
/-- The last unit of a table takes no reading from a token other than its symbol. -/
theorem reading?_concat {units : List (BaseUnit α)} {reading : Reading α} (h : reading? units token = some reading)
    (other : token ≠ b.symbol) : reading? (units ++ [b]) token = some reading := by
  have bare : bareReading? (units ++ [b]) token = bareReading? units token := by
    have absent : [b].find? (·.symbol = token) = none := by
      rw [List.find?_singleton, if_neg (by simpa using Ne.symm other)]
    rw [bareReading?, bareReading?, List.find?_append, absent, Option.or_none]
  rw [reading?, bare]
  rcases Option.or_eq_some_iff.mp h with here | ⟨absent, prefixed⟩
  · rw [here, Option.some_or]
  · rw [absent, Option.none_or, List.findSome?_append, prefixed, Option.some_or]

omit [Scalar α] in
theorem readings_register (indexed : r.Indexed) (added : r.register b = .ok r') {reading : Reading α}
    (known : r.readings[token]? = some reading) (other : token ≠ b.symbol) :
    r'.readings[token]? = some reading := by
  rw [indexed.getElem?_readings] at known
  rw [(register_indexed indexed added).getElem?_readings, (register_ok indexed.toNumbered added).2]
  exact reading?_concat known other

omit [Scalar α] in
theorem readings_unchanged (indexed : r.Indexed) (added : r.register b = .ok r')
    (known : ∃ reading, r.readings[token]? = some reading) (other : token ≠ b.symbol) :
    r.readings[token]? = r'.readings[token]? := by
  obtain ⟨reading, known⟩ := known
  rw [known, readings_register indexed added known other]

/-- Registration is conservative. A token that is read keeps its reading, unless it is the new symbol; so does
a text that is read, unless the new symbol is among its tokens; and a quantity reduces as before, to a result
or to an error, where the definitions that its reduction comes upon have tokens that are read and are not
the new symbol. -/
theorem register_conservative (reachable : r.Reachable) (added : r.register b = .ok r') :
    (∀ token e w, r.resolve token e = .ok w → token ≠ b.symbol → r'.resolve token e = .ok w) ∧
      (∀ text q, r.parse text = .ok q → b.symbol ∉ spellings text → r'.parse text = .ok q) ∧
      ∀ q : Quantity α, (∀ c, r.Meets q c → ∀ metric ∈ c.definition.metric?, ∀ s ∈ spellings metric,
        s ≠ b.symbol ∧ ∃ w, r.resolve s 1 = .ok w) → r'.reduce q = r.reduce q := by
  have indexed := reachable.indexed
  have kept : ∀ {s}, (∃ reading, r.readings[s]? = some reading) → s ≠ b.symbol →
      r.readings[s]? = r'.readings[s]? := fun known other => readings_unchanged indexed added known other
  refine ⟨?_, ?_, ?_⟩
  · intro token e w resolved other
    obtain ⟨reading, read, -⟩ := resolve_ok resolved
    rw [← resolve_congr (kept ⟨reading, read⟩ other), resolved]
  · intro text q parsed absent
    rw [← parse_congr fun s listed =>
      kept (readings_of_parse parsed s listed) fun same => absent (same ▸ listed), parsed]
  · intro q known
    refine (reduce_congr fun c met metric defined => parse_congr fun s listed => ?_).symm
    obtain ⟨other, w, resolved⟩ := known c met metric defined s listed
    obtain ⟨reading, read, -⟩ := resolve_ok resolved
    exact kept ⟨reading, read⟩ other

/-! ### A new unit beside the built-in ones -/

/-- With the prefix `m` it spells the mole. -/
def ol : BaseUnit Float :=
  { symbol := "ol", name := "ol", acceptedPrefixes := Builtin.metric }

theorem ol_unread : standard.readings["ol"]? = none := by
  rw [standard_indexed.getElem?_readings, standard_units]
  exact Option.isNone_iff_eq_none.mp (by decide +kernel)

theorem standard_meets {q : Quantity Float} (covers : standard.Covers q.units) {c : BaseUnit Float}
    (met : standard.Meets q c) : c ∈ standard.units := by
  obtain ⟨u, member, path⟩ := met
  induction path with
  | refl => exact covers u member
  | tail _ edge _ => exact edge.mem standard_indexed

theorem register_conservative_ol :
    ∃ r', standard.register ol = .ok r' ∧
      (∃ w, standard.resolve "mol" 1 = .ok w ∧ "mol" ≠ ol.symbol ∧ r'.resolve "mol" 1 = .ok w) ∧
      (∃ q, standard.parse "mol/K" = .ok q ∧ ol.symbol ∉ spellings "mol/K" ∧ r'.parse "mol/K" = .ok q) ∧
      r'.reduce energySquared = standard.reduce energySquared := by
  have free : ol.symbol ∉ standard.units.map (·.symbol) := by
    rw [standard_units, map_symbol_numbered, Builtin.map_symbol_units]
    decide
  obtain ⟨r', registered, -⟩ := register_free standard_indexed.toNumbered free
  obtain ⟨tokens, texts, reductions⟩ := register_conservative builtin_reachable registered
  obtain ⟨us, read⟩ := Option.isSome_iff_exists.mp
    (show (factors? (numbered (Builtin.units : List (BaseUnit Float))) "mol/K").isSome = true by decide +kernel)
  rw [← standard_units] at read
  have parsed : standard.parse "mol/K" = .ok ⟨Scalar.one, us⟩ := parse_of_factors? standard_indexed read
  have absent : ol.symbol ∉ spellings "mol/K" := by decide +kernel
  obtain ⟨reading, mole⟩ := readings_of_parse parsed "mol" (by decide +kernel)
  have resolved : standard.resolve "mol" 1 = .ok ⟨reading.base, reading.pre, 1⟩ := by
    rw [resolve, mole]
  refine ⟨r', registered, ⟨_, resolved, by decide, tokens _ _ _ resolved (by decide)⟩,
    ⟨_, parsed, absent, texts _ _ parsed absent⟩, reductions _ fun c met metric defined s listed => ?_⟩
  obtain ⟨_, definition, -⟩ := standard_definition (standard_meets energySquared_covers met) defined
  obtain ⟨reading, known⟩ := readings_of_parse definition s listed
  have resolves : standard.resolve s 1 = .ok ⟨reading.base, reading.pre, 1⟩ := by rw [resolve, known]
  refine ⟨?_, _, resolves⟩
  rintro rfl
  rw [show ol.symbol = "ol" from rfl, ol_unread] at known
  cases known

end Metrology.Registry
