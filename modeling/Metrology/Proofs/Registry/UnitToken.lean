import Metrology.Proofs.Registry.Clash
import Metrology.Proofs.Registry.MoneyText

/-!
Single units. `splitToken?_eq_some_iff` says which texts are split into a label and an exponent, and
`parse_letter_iff` what a text that begins with a letter is read as. Main statements: `parseUnit_render`, by
which units are read back from their plain text where no spellings clash, and `parseUnit_iff_parse`, by which a
text is read as a unit exactly when it is read as a quantity of this unit alone.
-/

namespace Metrology
open Text Expression Outcome

variable {α : Type} {r : Registry α} {u : Factor α} {cs a power rest : List Char} {e : Exponent} {text : String}
  {expression : Expression}

/-! ### Texts that begin with a letter -/

namespace Expression

def StartsWithLetter (cs : List Char) : Prop :=
  ∃ c ∈ cs.head?, isSymbolChar c = true

theorem StartsWithLetter.unsigned (h : StartsWithLetter cs) : unsigned cs = cs := by
  obtain ⟨c, head, letter⟩ := h
  obtain ⟨cs, rfl⟩ := List.head?_eq_some_iff.mp head
  have plus := ne_of_isSymbolChar (d := '+') letter (by decide)
  have minus := ne_of_isSymbolChar (d := '-') letter (by decide)
  simp [Expression.unsigned, plus, minus]

theorem StartsWithLetter.not_money (h : StartsWithLetter cs) : ¬IsMoney cs expression := by
  intro money
  obtain ⟨c, head, currency⟩ := money.unsigned
  rw [h.unsigned] at head
  obtain ⟨c', head', letter⟩ := h
  obtain rfl : c = c' := Option.some.inj (head.symm.trans head')
  simp [(isCurrencySymbol_spec currency).2.2.2.2] at letter

theorem StartsWithLetter.not_float (h : StartsWithLetter (a ++ rest)) : ¬IsFloat a := by
  intro float
  obtain ⟨c, head, digit⟩ := float.unsigned rest
  rw [h.unsigned] at head
  obtain ⟨c', head', letter⟩ := h
  obtain rfl : c = c' := Option.some.inj (head.symm.trans head')
  simp [isDigit_of_isSymbolChar letter] at digit

theorem StartsWithLetter.solid (h : StartsWithLetter cs) : ∀ c ∈ cs.head?, isBlank c = false := by
  intro c head
  obtain ⟨c', head', letter⟩ := h
  obtain rfl : c = c' := Option.some.inj (head.symm.trans head')
  exact isBlank_of_isSymbolChar letter

/-- A letter begins a unit, which has neither an amount nor a slash before it. -/
theorem scan?_letter_iff (letter : StartsWithLetter cs) :
    scan? cs = some expression ↔ ∃ a rest t ts, cs = a ++ rest ∧ IsUnit .times a t ∧ IsTail rest ts ∧
      expression = .physical none (t :: ts) := by
  rw [scan?_eq_some_iff]
  constructor
  · intro derives
    cases derives with
    | money money => exact absurd money letter.not_money
    | physical physical longest =>
      obtain ⟨front, leading, unit, tail⟩ := physical
      cases front with
      | tight float => exact absurd float letter.not_float
      | spaced float =>
        rw [List.append_assoc] at letter
        exact absurd float letter.not_float
      | none =>
        cases leading with
        | times =>
          refine ⟨_, _, _, _, ?_, unit, tail, rfl⟩
          rfl
        | per =>
          obtain ⟨c, head, letter⟩ := letter
          obtain rfl := Option.some.inj head
          simp [isSymbolChar] at letter
  · rintro ⟨a, rest, t, ts, rfl, unit, tail, rfl⟩
    have physical : IsPhysical ([] ++ ([] ++ (a ++ rest))) (.physical none (t :: ts)) := .intro .none .times unit tail
    refine .physical physical ?_
    rintro p ⟨rest', same⟩ float
    rw [← same] at letter
    exact letter.not_float float

end Expression

namespace Registry

/-! ### The label and the exponent of a token -/

/-- What the token of a unit begins with. -/
inductive IsLabel : List Char → Prop where
  | letters {cs : List Char} : IsSpelling cs → IsLabel cs
  | currency {c : Char} : isCurrencySymbol c = true → IsLabel [c]

theorem IsLabel.isSpelling (h : IsLabel a) (letter : StartsWithLetter (a ++ rest)) : IsSpelling a := by
  cases h with
  | letters spelling => exact spelling
  | currency currency =>
    obtain ⟨c, head, letter⟩ := letter
    obtain rfl := Option.some.inj head
    simp [(isCurrencySymbol_spec currency).2.2.2.2] at letter

theorem tokenSpelling?_sound (h : tokenSpelling? cs = some (a, rest)) : a ++ rest = cs ∧ IsLabel a := by
  unfold tokenSpelling? at h
  split at h
  · cases h
  · rename_i c cs
    split at h
    · rename_i currency
      cases h
      exact ⟨rfl, .currency currency⟩
    · dsimp only at h
      split at h
      · cases h
      · rename_i fits
        cases h
        rw [not_or, maxSpelling, Nat.not_lt] at fits
        exact ⟨List.takeWhile_append_dropWhile, .letters ⟨fits.1, fun c => List.mem_takeWhile_imp, fits.2⟩⟩

theorem tokenSpelling?_exact (label : IsLabel a) (stop : ∀ c ∈ rest.head?, isSymbolChar c = false) :
    tokenSpelling? (a ++ rest) = some (a, rest) := by
  cases label with
  | currency currency => simp [tokenSpelling?, currency]
  | letters spelling =>
    have taken := takeWhile_append_stop spelling.isSymbolChar stop
    have left := dropWhile_append_stop spelling.isSymbolChar stop
    have fits : ¬(a = [] ∨ maxSpelling < a.length) := not_or.mpr ⟨spelling.ne_nil, Nat.not_lt.mpr spelling.length_le⟩
    obtain ⟨c, tail, rfl⟩ := List.exists_cons_of_ne_nil spelling.ne_nil
    have letter := spelling.isSymbolChar c List.mem_cons_self
    have other : isCurrencySymbol c = false := by
      by_contra currency
      simp [(isCurrencySymbol_spec (Bool.not_eq_false _ ▸ currency)).2.2.2.2] at letter
    rw [List.cons_append] at taken left ⊢
    simp only [tokenSpelling?, other, taken, left, if_neg fits]
    rfl

theorem tokenExponent?_eq_some_iff : tokenExponent? cs = some e ↔ ∃ e', IsExponent cs e' ∧ e'.getD 1 = e := by
  constructor
  · intro h
    unfold tokenExponent? at h
    split at h
    · cases h
      exact ⟨none, .none, rfl⟩
    · rename_i ds
      obtain ⟨all, read⟩ := Option.ite_none_right_eq_some.mp h
      rw [ofChars?_eq_some_iff] at read
      have digits : IsDigits ds := by
        refine ⟨?_, List.all_eq_true.mp all⟩
        rintro rfl
        cases read
      refine ⟨some e, .negative digits ?_, rfl⟩
      exact (Option.some.inj ((readInt?_minus digits).symm.trans read)).symm
    · rename_i some _
      obtain ⟨all, read⟩ := Option.ite_none_right_eq_some.mp h
      rw [ofChars?_eq_some_iff] at read
      have digits : IsDigits cs := ⟨some, List.all_eq_true.mp all⟩
      refine ⟨.some e, .positive digits ?_, rfl⟩
      exact (Option.some.inj ((readInt?_digits digits).symm.trans read)).symm
  · rintro ⟨e', exponent, rfl⟩
    cases exponent with
    | none => rfl
    | positive digits value =>
      have read := ofChars?_eq_some_iff.mpr ((readInt?_digits digits).trans (congrArg some value.symm))
      have all := List.all_eq_true.mpr digits.isDigit
      obtain ⟨c, tail, rfl, digit⟩ := digits.exists_cons
      unfold tokenExponent?
      split
      · rename_i same
        cases same
      · rename_i same
        cases same
        simp at digit
      · rw [if_pos all, read]
        rfl
    | negative digits value =>
      have read := ofChars?_eq_some_iff.mpr ((readInt?_minus digits).trans (congrArg some value.symm))
      rw [tokenExponent?, if_pos (List.all_eq_true.mpr digits.isDigit), read]
      rfl

/-- A token is a label with an exponent. -/
theorem splitToken?_eq_some_iff :
    splitToken? cs = some (a, e) ↔ ∃ power e', cs = a ++ power ∧ IsLabel a ∧ IsExponent power e' ∧ e'.getD 1 = e := by
  constructor
  · intro h
    obtain ⟨⟨label, rest⟩, split, h⟩ := Option.bind_eq_some_iff.mp h
    obtain ⟨e', read, h⟩ := Option.bind_eq_some_iff.mp h
    cases h
    obtain ⟨parts, label⟩ := tokenSpelling?_sound split
    obtain ⟨e', exponent, same⟩ := tokenExponent?_eq_some_iff.mp read
    exact ⟨rest, e', parts.symm, label, exponent, same⟩
  · rintro ⟨power, e', rfl, label, exponent, same⟩
    have stop : ∀ c ∈ power.head?, isSymbolChar c = false := by
      intro c head
      have ends : EndsUnit [] := nofun
      rw [← List.append_nil power] at head
      exact exponent.head ends head
    refine Option.bind_eq_some_iff.mpr ⟨_, tokenSpelling?_exact label stop, ?_⟩
    exact Option.bind_eq_some_iff.mpr ⟨e, tokenExponent?_eq_some_iff.mpr ⟨e', exponent, same⟩, rfl⟩

theorem parseUnit_ok_iff :
    r.parseUnit text = .ok u ↔
      ∃ a e, splitToken? text.toList = some (a, e) ∧ r.resolve (String.ofList a) e = .ok u := by
  unfold parseUnit
  cases split : splitToken? text.toList with
  | none => simp
  | some token =>
    obtain ⟨label, e⟩ := token
    simp only [Option.some.injEq, Prod.mk.injEq, and_assoc, exists_and_left, exists_eq_left']

/-! ### Units and their plain text -/

/-- The exponent of a factor as its plain text has it. -/
theorem exists_exponent_plain (e : Exponent) :
    ∃ e', IsExponent (if e.val = 1 then [] else Style.ascii.exponent e.val) e' ∧ e'.getD 1 = e := by
  rcases Int.lt_or_le e.val 0 with negative | nonneg
  · refine ⟨some e, ?_, rfl⟩
    rw [if_neg (by omega), Style.exponent, plain_of_neg negative]
    refine .negative (isDigits_toDigits _) ?_
    rw [Nat.ofDigitChars_toDigits (by decide) (by decide)]
    omega
  · exact Factor.exists_exponent nonneg

theorem splitToken?_render (label : IsLabel u.spelling.toList) :
    splitToken? (u.render .ascii) = some (u.spelling.toList, u.exponent) := by
  obtain ⟨e', exponent, same⟩ := exists_exponent_plain u.exponent
  exact splitToken?_eq_some_iff.mpr ⟨_, e', rfl, label, exponent, same⟩

/-- Where no spellings clash, a unit is read back from its plain text. -/
theorem parseUnit_render [Scalar α] (reachable : r.Reachable) (clear : r.clashes = []) (member : u.base ∈ r.units)
    (accepted : ∀ p ∈ u.pre, p ∈ u.base.prefixes) (label : IsLabel u.spelling.toList) :
    r.parseUnit (String.ofList (u.render .ascii)) = .ok u := by
  have unambiguous := unambiguous_of_nodup (clashes_eq_nil_iff.mp clear)
  refine parseUnit_ok_iff.mpr ⟨u.spelling.toList, u.exponent, ?_, ?_⟩
  · rw [String.toList_ofList, splitToken?_render label]
  · rw [String.ofList_toList]
    exact resolve_spelling reachable.indexed unambiguous member accepted

/-- Kilometres to the least power that there is. -/
def leastKilometre : Factor Float :=
  ⟨Builtin.metre, some Builtin.kilo, .least⟩

theorem parseUnit_render_samples :
    standard.clashes = [] ∧
      standard.parseUnit "km-2147483648" = .ok leastKilometre ∧
      standard.parseUnit "$0" = .ok ⟨Builtin.dollar, none, 0⟩ := by
  have accepted : ∀ p ∈ leastKilometre.pre, p ∈ leastKilometre.base.prefixes := by
    simpa [leastKilometre] using Builtin.kilo_accepted
  have offers : Offers standard.units ⟨Builtin.metre, some Builtin.kilo⟩ := ⟨Builtin.metre_mem, accepted⟩
  have kilometre : IsLabel leastKilometre.spelling.toList := .letters (standard_isSpelling offers rfl)
  have texts : String.ofList (leastKilometre.render .ascii) = "km-2147483648" ∧
      String.ofList (Factor.render ⟨Builtin.dollar, none, 0⟩ .ascii) = "$0" := by decide +kernel
  rw [← texts.1, ← texts.2]
  exact ⟨standard_clashes, parseUnit_render builtin_reachable standard_clashes Builtin.metre_mem accepted kilometre,
    parseUnit_render builtin_reachable standard_clashes Builtin.dollar_mem nofun (.currency (c := '$') rfl)⟩

/-! ### Units as quantities -/

section Quantities

variable [Scalar α]

omit [Scalar α] in
/-- A token that begins with a letter names what the unit of the grammar resolves to. -/
theorem parseUnit_letter_iff (letter : StartsWithLetter text.toList) :
    r.parseUnit text = .ok u ↔ ∃ t, IsUnit .times text.toList t ∧ r.resolveToken t = .ok u := by
  rw [parseUnit_ok_iff]
  constructor
  · rintro ⟨a, e, split, resolved⟩
    obtain ⟨power, e', same, label, exponent, rfl⟩ := splitToken?_eq_some_iff.mp split
    rw [same] at letter ⊢
    exact ⟨_, .intro (label.isSpelling letter) exponent, bind_ok_iff.mpr ⟨u, resolved, rfl⟩⟩
  · rintro ⟨t, unit, resolved⟩
    generalize text.toList = cs at unit
    obtain ⟨spelling, exponent⟩ := unit
    obtain ⟨w, resolved, same⟩ := bind_ok resolved
    cases same
    exact ⟨_, _, splitToken?_eq_some_iff.mpr ⟨_, _, rfl, .letters spelling, exponent, rfl⟩, resolved⟩

theorem parse_ok_iff {q : Quantity α} :
    r.parse text = .ok q ↔ ∃ expression, scan? (trim text.toList) = some expression ∧ r.evaluate expression = .ok q := by
  unfold parse
  cases scanned : scan? (trim text.toList) with
  | none => simp [scanned]
  | some expression => simp [scanned]

theorem evaluate_bare_iff {ts : List Token} {q : Quantity α} :
    r.evaluate (.physical none ts) = .ok q ↔ ∃ us, ts.mapM r.resolveToken = .ok us ∧ q = ⟨Scalar.one, us⟩ := by
  constructor
  · intro h
    obtain ⟨x, amount, h⟩ := bind_ok h
    obtain ⟨us, resolved, h⟩ := bind_ok h
    cases amount
    exact ⟨us, resolved, pure_ok h⟩
  · rintro ⟨us, resolved, rfl⟩
    exact bind_ok_iff.mpr ⟨_, rfl, bind_ok_iff.mpr ⟨us, resolved, rfl⟩⟩

/-- A text that begins with a letter is read as the product of its units, without an amount. -/
theorem parse_letter_iff (letter : StartsWithLetter text.toList) (solid : ∀ c ∈ text.toList.getLast?, isBlank c = false)
    {q : Quantity α} :
    r.parse text = .ok q ↔ ∃ a rest t ts us, text.toList = a ++ rest ∧ IsUnit .times a t ∧ IsTail rest ts ∧
      (t :: ts).mapM r.resolveToken = .ok us ∧ q = ⟨Scalar.one, us⟩ := by
  rw [parse_ok_iff, trim_eq letter.solid solid]
  constructor
  · rintro ⟨expression, scanned, evaluated⟩
    obtain ⟨a, rest, t, ts, same, unit, tail, rfl⟩ := (scan?_letter_iff letter).mp scanned
    obtain ⟨us, resolved, rfl⟩ := evaluate_bare_iff.mp evaluated
    exact ⟨a, rest, t, ts, us, same, unit, tail, resolved, rfl⟩
  · rintro ⟨a, rest, t, ts, us, same, unit, tail, resolved, rfl⟩
    have scanned := (scan?_letter_iff letter).mpr ⟨a, rest, t, ts, same, unit, tail, rfl⟩
    exact ⟨_, scanned, evaluate_bare_iff.mpr ⟨us, resolved, rfl⟩⟩

theorem parse_single_iff (letter : StartsWithLetter text.toList) (solid : ∀ c ∈ text.toList.getLast?, isBlank c = false) :
    r.parse text = .ok ⟨Scalar.one, [u]⟩ ↔ ∃ t, IsUnit .times text.toList t ∧ r.resolveToken t = .ok u := by
  rw [parse_letter_iff letter solid]
  constructor
  · rintro ⟨a, rest, t, ts, us, same, unit, tail, resolved, single⟩
    cases single
    obtain ⟨first, others⟩ := List.forall₂_cons.mp (mapM_ok resolved)
    cases others
    cases tail
    rw [List.append_nil] at same
    exact ⟨t, same ▸ unit, first⟩
  · rintro ⟨t, unit, resolved⟩
    refine ⟨text.toList, [], t, [], [u], (List.append_nil _).symm, unit, .nil, ?_, rfl⟩
    exact mapM_of_forall₂ (.cons resolved .nil)

theorem parseUnit_single_iff (letter : StartsWithLetter text.toList) (solid : ∀ c ∈ text.toList.getLast?, isBlank c = false) :
    r.parseUnit text = .ok u ↔ r.parse text = .ok ⟨Scalar.one, [u]⟩ :=
  (parseUnit_letter_iff letter).trans (parse_single_iff letter solid).symm

/-- What is read is one unit, or several with an operator between them. -/
theorem parse_letter_cases (letter : StartsWithLetter text.toList) (solid : ∀ c ∈ text.toList.getLast?, isBlank c = false)
    {q : Quantity α} (parsed : r.parse text = .ok q) :
    (∃ u, q = ⟨Scalar.one, [u]⟩) ∨ 2 ≤ q.units.length ∧ ∃ c ∈ text.toList, operator? c ≠ none := by
  obtain ⟨a, rest, t, ts, us, same, -, tail, resolved, rfl⟩ := (parse_letter_iff letter solid).mp parsed
  have length : us.length = ts.length + 1 := (mapM_ok resolved).length_eq.symm
  cases tail with
  | nil =>
    obtain ⟨u, rfl⟩ := List.length_eq_one_iff.mp length
    exact .inl ⟨u, rfl⟩
  | @cons c operator _ _ _ _ sign =>
    refine .inr ⟨by simp [length], c, by rw [same]; simp, ?_⟩
    simp [operator?_eq_some_iff.mpr sign]

theorem parseUnit_refused_iff (letter : StartsWithLetter text.toList)
    (solid : ∀ c ∈ text.toList.getLast?, isBlank c = false) :
    (∃ e, r.parseUnit text = .error e) ↔
      (∃ e, r.parse text = .error e) ∨ ∃ q, r.parse text = .ok q ∧ 2 ≤ q.units.length := by
  cases named : r.parseUnit text with
  | ok u =>
    rw [(parseUnit_single_iff letter solid).mp named]
    simp
  | error e =>
    refine iff_of_true ⟨e, rfl⟩ ?_
    cases parsed : r.parse text with
    | error e' => exact .inl ⟨e', rfl⟩
    | ok q =>
      rcases parse_letter_cases letter solid parsed with ⟨u, rfl⟩ | ⟨several, -⟩
      · rw [(parseUnit_single_iff letter solid).mpr parsed] at named
        cases named
      · exact .inr ⟨q, rfl, several⟩

/-- A text that begins with a letter and does not end in a blank is read as a unit exactly when it is read as a
quantity of this unit alone. Where it is refused as a unit it is refused as a quantity, or is a product of several
units and has an operator. -/
theorem parseUnit_iff_parse (letter : StartsWithLetter text.toList)
    (solid : ∀ c ∈ text.toList.getLast?, isBlank c = false) :
    (∀ u, r.parseUnit text = .ok u ↔ r.parse text = .ok ⟨Scalar.one, [u]⟩) ∧
      ((∃ e, r.parseUnit text = .error e) ↔
        (∃ e, r.parse text = .error e) ∨ ∃ q, r.parse text = .ok q ∧ 2 ≤ q.units.length) ∧
      ((∀ c ∈ text.toList, operator? c = none) →
        ((∃ e, r.parseUnit text = .error e) ↔ ∃ e, r.parse text = .error e)) := by
  refine ⟨fun u => parseUnit_single_iff letter solid, parseUnit_refused_iff letter solid, fun plain => ?_⟩
  rw [parseUnit_refused_iff letter solid]
  refine or_iff_left ?_
  rintro ⟨q, parsed, several⟩
  rcases parse_letter_cases letter solid parsed with ⟨u, rfl⟩ | ⟨-, c, listed, operator⟩
  · simp at several
  · exact operator (plain c listed)

end Quantities

theorem parseUnit_iff_parse_samples :
    (standard.parseUnit "km2" = .ok ⟨Builtin.metre, some Builtin.kilo, .squared⟩ ∧
      standard.parse "km2" = .ok ⟨1, [⟨Builtin.metre, some Builtin.kilo, .squared⟩]⟩) ∧
      (∃ e, standard.parseUnit "abcdefg" = .error e) ∧ ∃ e, standard.parse "abcdefg" = .error e := by
  have kilometres : StartsWithLetter "km2".toList ∧ ∀ c ∈ "km2".toList.getLast?, isBlank c = false :=
    ⟨⟨'k', rfl, rfl⟩, by simp [isBlank, blankRuns]⟩
  have letters : StartsWithLetter "abcdefg".toList ∧ ∀ c ∈ "abcdefg".toList.getLast?, isBlank c = false :=
    ⟨⟨'a', rfl, rfl⟩, by simp [isBlank, blankRuns]⟩
  obtain ⟨agree, -, -⟩ := parseUnit_iff_parse (r := standard) kilometres.1 kilometres.2
  obtain ⟨-, -, refuse⟩ := parseUnit_iff_parse (r := standard) letters.1 letters.2
  have named : standard.parseUnit "km2" = .ok ⟨Builtin.metre, some Builtin.kilo, .squared⟩ := by
    have kilometre : Offers standard.units ⟨Builtin.metre, some Builtin.kilo⟩ :=
      ⟨Builtin.metre_mem, by simpa using Builtin.kilo_accepted⟩
    have read : standard.readings["km"]? = _ := standard_reading kilometre
    refine parseUnit_ok_iff.mpr ⟨['k', 'm'], .squared, by decide +kernel, ?_⟩
    rw [resolve, show String.ofList ['k', 'm'] = "km" from rfl, read]
  have long : standard.parseUnit "abcdefg" = .error (.malformedUnit "abcdefg") := by
    have unsplit : splitToken? "abcdefg".toList = none := by decide +kernel
    rw [parseUnit, unsplit]
  exact ⟨⟨named, (agree _).mp named⟩, ⟨_, long⟩, (refuse (by simp [operator?])).mp ⟨_, long⟩⟩

end Registry

end Metrology
