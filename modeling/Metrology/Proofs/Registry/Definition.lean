import Mathlib.Data.List.Chain
import Mathlib.Data.List.Perm.Subperm
import Mathlib.Logic.Relation
import Metrology.Registry.Parse
import Metrology.Proofs.Expression.Scanner
import Metrology.Proofs.Registry.Reachable

/-!
How the units of a registry are defined through each other. `Depends` relates a unit to what the
tokens of its definition resolve to, and a registry is `Acyclic` when no unit depends on itself.
`parse_of_factors?`: a list of units is read as a search through the registry reads its tokens, and
`parse_token` is the case of a single one.
`stable_of_acyclic`: whatever is computed down the definitions is settled once there is fuel for
every unit.
-/

namespace Metrology

/-- The tokens of an expression that are looked up. -/
def Expression.spellings : Expression → List String
  | .money _ symbol _ _ tokens => String.singleton symbol :: tokens.map (String.ofList ·.spelling)
  | .physical _ tokens => tokens.map (String.ofList ·.spelling)

def spellings (text : String) : List String :=
  (Expression.scan? (Text.trim text.toList)).elim [] Expression.spellings

theorem spellings_token {token : String} (legible : Expression.IsSpelling token.toList) :
    spellings token = [token] := by
  rw [spellings, legible.trim, Expression.scan?_spelling legible]
  show [String.ofList token.toList] = [token]
  rw [String.ofList_toList]

namespace Registry
open Outcome

variable {α : Type} [Scalar α] {r : Registry α} {u v : BaseUnit α}

/-- A token of the definition of `u` stands for `v`, with or without a prefix. -/
def Depends (r : Registry α) (u v : BaseUnit α) : Prop :=
  ∃ metric ∈ u.definition.metric?, ∃ s ∈ spellings metric, ∃ reading ∈ r.readings[s]?, reading.base = v

def Acyclic (r : Registry α) : Prop :=
  ∀ u, ¬ Relation.TransGen r.Depends u u

/-- No unit is defined by a scale with an offset. -/
def Plain (r : Registry α) : Prop :=
  ∀ u ∈ r.units, ∀ v, r.Depends u v → v.definition.offsetScale? = none

omit [Scalar α] in
theorem Depends.mem (indexed : r.Indexed) (h : r.Depends u v) : v ∈ r.units := by
  obtain ⟨_, _, s, _, reading, found, rfl⟩ := h
  rw [indexed.getElem?_readings] at found
  exact (mem_of_reading? found).1

omit [Scalar α] in
theorem acyclic_of_rank (indexed : r.Indexed) (rank : BaseUnit α → Nat)
    (descends : ∀ u ∈ r.units, ∀ v, r.Depends u v → rank v < rank u) : r.Acyclic := by
  have below : ∀ u ∈ r.units, ∀ v, Relation.TransGen r.Depends u v → v ∈ r.units ∧ rank v < rank u := by
    intro u member v path
    induction path with
    | single edge => exact ⟨edge.mem indexed, descends _ member _ edge⟩
    | tail _ edge ih => exact ⟨edge.mem indexed, (descends _ ih.1 _ edge).trans ih.2⟩
  intro u cycle
  obtain ⟨_, _, edge⟩ := Relation.TransGen.tail'_iff.mp cycle
  exact lt_irrefl _ (below u (edge.mem indexed) u cycle).2

/-! ### What a text resolves to -/

omit [Scalar α] in
theorem resolve_ok {token : String} {e : Exponent} {w : Factor α} (h : r.resolve token e = .ok w) :
    ∃ reading, r.readings[token]? = some reading ∧ w = ⟨reading.base, reading.pre, e⟩ := by
  unfold resolve at h
  split at h
  · rename_i reading found
    exact ⟨reading, found, (Except.ok.inj h).symm⟩
  · cases h

omit [Scalar α] in
theorem resolveToken_ok {t : Token} {w : Factor α} (h : r.resolveToken t = .ok w) :
    ∃ reading, r.readings[String.ofList t.spelling]? = some reading ∧
      w.base = reading.base ∧ w.pre = reading.pre := by
  obtain ⟨resolved, found, h⟩ := bind_ok h
  obtain ⟨reading, read, rfl⟩ := resolve_ok found
  refine ⟨reading, read, ?_⟩
  cases operator : t.operator with
  | times =>
    rw [operator] at h
    obtain rfl := Except.ok.inj h
    exact ⟨rfl, rfl⟩
  | per =>
    rw [operator] at h
    exact ⟨(Factor.invert_ok h).1, (Factor.invert_ok h).2.1⟩

omit [Scalar α] in
theorem resolveCurrency_ok {symbol : Char} {letter : Option Char} {w : Factor α}
    (h : r.resolveCurrency symbol letter = .ok w) :
    ∃ reading, r.readings[String.singleton symbol]? = some reading ∧ w.base = reading.base ∧
      (w.pre = reading.pre ∨ ∃ p ∈ reading.base.prefixes, w.pre = some p) := by
  unfold resolveCurrency at h
  split at h
  · cases h
  · rename_i resolved found
    obtain ⟨reading, read, rfl⟩ := resolve_ok found
    refine ⟨reading, read, ?_⟩
    split at h
    · obtain rfl := Except.ok.inj h
      exact ⟨rfl, .inl rfl⟩
    · split at h
      · rename_i p chosen
        obtain rfl := Except.ok.inj h
        exact ⟨rfl, .inr ⟨p, List.mem_of_find?_eq_some chosen, rfl⟩⟩
      · cases h

omit [Scalar α] in
theorem resolveTokens_ok {tokens : List Token} {units : List (Factor α)}
    (h : tokens.mapM r.resolveToken = .ok units) {w : Factor α} (member : w ∈ units) :
    ∃ s ∈ tokens.map (String.ofList ·.spelling), ∃ reading ∈ r.readings[s]?,
      w.base = reading.base ∧ w.pre = reading.pre := by
  obtain ⟨t, present, found⟩ := mem_of_mapM_ok h member
  obtain ⟨reading, read, base, pre⟩ := resolveToken_ok found
  exact ⟨_, List.mem_map.mpr ⟨t, present, rfl⟩, reading, read, base, pre⟩

/-- Every factor of a text comes from a reading of one of its tokens. -/
theorem parse_ok {text : String} {q : Quantity α} (h : r.parse text = .ok q) {w : Factor α}
    (member : w ∈ q.units) :
    ∃ s ∈ spellings text, ∃ reading ∈ r.readings[s]?, w.base = reading.base ∧
      (w.pre = reading.pre ∨ ∃ p ∈ reading.base.prefixes, w.pre = some p) := by
  unfold parse at h
  cases scanned : Expression.scan? (Text.trim text.toList) with
  | none => simp [scanned] at h
  | some e =>
    simp only [scanned] at h
    have tokens : spellings text = e.spellings := by rw [spellings, scanned]; rfl
    rw [tokens]
    cases e with
    | money negative symbol amount letter tokens =>
      obtain ⟨x, _, h⟩ := bind_ok h
      obtain ⟨currency, coined, h⟩ := bind_ok h
      obtain ⟨units, resolved, h⟩ := bind_ok h
      rw [pure_ok h] at member
      rcases List.mem_cons.mp member with rfl | member
      · obtain ⟨reading, read, base, pre⟩ := resolveCurrency_ok coined
        exact ⟨_, List.mem_cons_self, reading, read, base, pre⟩
      · obtain ⟨s, present, reading, read, base, pre⟩ := resolveTokens_ok resolved member
        exact ⟨s, List.mem_cons_of_mem _ present, reading, read, base, .inl pre⟩
    | physical amount tokens =>
      obtain ⟨x, _, h⟩ := bind_ok h
      obtain ⟨units, resolved, h⟩ := bind_ok h
      rw [pure_ok h] at member
      obtain ⟨s, present, reading, read, base, pre⟩ := resolveTokens_ok resolved member
      exact ⟨s, present, reading, read, base, .inl pre⟩

theorem depends_of_parse {metric : String} {q : Quantity α} (defined : u.definition.metric? = some metric)
    (h : r.parse metric = .ok q) {w : Factor α} (member : w ∈ q.units) : r.Depends u w.base := by
  obtain ⟨s, present, reading, read, base, _⟩ := parse_ok h member
  exact ⟨metric, defined, s, present, reading, read, base.symm⟩

theorem covers_parse (indexed : r.Indexed) {text : String} {q : Quantity α} (h : r.parse text = .ok q) :
    r.Covers q.units := by
  intro w member
  obtain ⟨s, _, reading, read, base, _⟩ := parse_ok h member
  rw [indexed.getElem?_readings] at read
  rw [base]
  exact (mem_of_reading? read).1

/-! ### Reading a text by search -/

/-- The factor that a token stands for among `units`. -/
def factor? (units : List (BaseUnit α)) (t : Token) : Option (Factor α) :=
  (reading? units (String.ofList t.spelling)).bind fun reading =>
    let e := t.exponent.getD 1
    (match t.operator with
      | .times => some e
      | .per => e.neg?).map fun e => ⟨reading.base, reading.pre, e⟩

/-- The factors of a text without an amount. -/
def factors? (units : List (BaseUnit α)) (text : String) : Option (List (Factor α)) :=
  match Expression.scan? (Text.trim text.toList) with
  | some (.physical none tokens) => tokens.mapM (factor? units)
  | _ => none

omit [Scalar α] in
theorem resolveToken_of_factor? (indexed : r.Indexed) {t : Token} {w : Factor α} (h : factor? r.units t = some w) :
    r.resolveToken t = .ok w := by
  obtain ⟨reading, read, h⟩ := Option.bind_eq_some_iff.mp h
  obtain ⟨e, signed, rfl⟩ := Option.map_eq_some_iff.mp h
  rw [← indexed.getElem?_readings] at read
  unfold resolveToken resolve
  rw [read]
  cases operator : t.operator with
  | times =>
    rw [operator] at signed
    cases signed
    rfl
  | per =>
    rw [operator] at signed
    have negated : (t.exponent.getD 1).neg? = some e := signed
    show Factor.invert _ = _
    rw [Factor.invert, negated]
    rfl

omit [Scalar α] in
theorem resolveTokens_of_factors? (indexed : r.Indexed) {tokens : List Token} {us : List (Factor α)}
    (h : tokens.mapM (factor? r.units) = some us) : tokens.mapM r.resolveToken = .ok us := by
  induction tokens generalizing us with
  | nil =>
    cases h
    rfl
  | cons t tokens ih =>
    rw [List.mapM_cons] at h ⊢
    obtain ⟨w, first, h⟩ := Option.bind_eq_some_iff.mp h
    obtain ⟨rest, others, h⟩ := Option.bind_eq_some_iff.mp h
    cases h
    rw [resolveToken_of_factor? indexed first, ih others]
    rfl

theorem parse_of_factors? (indexed : r.Indexed) {text : String} {us : List (Factor α)}
    (h : factors? r.units text = some us) :
    r.parse text = .ok ⟨Scalar.one, us⟩ := by
  unfold factors? at h
  split at h
  · rename_i tokens scanned
    simp only [parse, scanned, evaluate, resolveTokens_of_factors? indexed h]
    rfl
  · cases h

/-- A token by itself stands for what the registry reads it as. -/
theorem parse_token (indexed : r.Indexed) {token : String} {reading : Reading α}
    (legible : Expression.IsSpelling token.toList) (read : reading? r.units token = some reading) :
    r.parse token = .ok ⟨Scalar.one, [⟨reading.base, reading.pre, 1⟩]⟩ := by
  have found : factor? r.units ⟨.times, token.toList, none⟩ = some ⟨reading.base, reading.pre, 1⟩ := by
    rw [factor?, String.ofList_toList, read]
    rfl
  refine parse_of_factors? indexed ?_
  rw [factors?, legible.trim, Expression.scan?_spelling legible]
  show List.mapM _ _ = _
  rw [List.mapM_cons, found]
  rfl

theorem parse_symbol (indexed : r.Indexed) (member : u ∈ r.units) (legible : Expression.IsSpelling u.symbol.toList) :
    r.parse u.symbol = .ok ⟨Scalar.one, [⟨u, none, 1⟩]⟩ :=
  parse_token indexed legible (reading?_symbol indexed.distinct member)

/-! ### Computing down the definitions -/

variable {β : Type}

omit [Scalar α] in
/-- Where `n` levels of definitions do not settle `f`, there is a path of `n` dependencies. -/
theorem exists_path {f : Nat → BaseUnit α → β}
    (step : ∀ n u, (∀ v, r.Depends u v → f n v = f (n + 1) v) → f (n + 1) u = f (n + 2) u)
    (indexed : r.Indexed) {n : Nat} {u : BaseUnit α} (member : u ∈ r.units) (h : f n u ≠ f (n + 1) u) :
    ∃ path : List (BaseUnit α), (u :: path).IsChain r.Depends ∧ path.length = n ∧ u :: path ⊆ r.units := by
  induction n generalizing u with
  | zero => exact ⟨[], .singleton u, rfl, by simpa using member⟩
  | succ n ih =>
    obtain ⟨v, edge, unsettled⟩ : ∃ v, r.Depends u v ∧ f n v ≠ f (n + 1) v := by
      by_contra settled
      push Not at settled
      exact h (step n u settled)
    obtain ⟨path, chain, length, inside⟩ := ih (edge.mem indexed) unsettled
    refine ⟨v :: path, .cons_cons edge chain, by rw [List.length_cons, length], ?_⟩
    exact List.cons_subset.mpr ⟨member, inside⟩

omit [Scalar α] in
/-- Fuel for every unit settles whatever is computed down the definitions of an acyclic registry. -/
theorem stable_of_acyclic {f : Nat → BaseUnit α → β}
    (step : ∀ n u, (∀ v, r.Depends u v → f n v = f (n + 1) v) → f (n + 1) u = f (n + 2) u)
    (indexed : r.Indexed) (acyclic : r.Acyclic) (member : u ∈ r.units) :
    f r.size u = f (r.size + 1) u := by
  by_contra unsettled
  obtain ⟨path, chain, length, inside⟩ := exists_path step indexed member unsettled
  have ordered : (u :: path).Pairwise (Relation.TransGen r.Depends) :=
    (chain.imp fun _ _ => .single).pairwise
  have distinct : (u :: path).Nodup := by
    refine ordered.imp ?_
    rintro v w forward rfl
    exact acyclic v forward
  have bound : (u :: path).length ≤ r.units.length := (List.subperm_of_subset distinct inside).length_le
  rw [List.length_cons, length, Registry.size] at bound
  omega

end Registry

end Metrology
