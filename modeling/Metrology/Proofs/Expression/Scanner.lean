import Metrology.Expression.Scanner
import Metrology.Proofs.Expression.Grammar

/-!
The scanners against the grammar. A scanner that succeeds has taken a lexeme of its kind off the front;
and it takes any such lexeme that a boundary follows. Main statement: `scan?_derivation`.
-/

namespace Metrology.Expression
open Text

variable {cs ds a b p x u rest tail : List Char} {e : Option Exponent} {operator : Operator} {t : Token}
  {ts : List Token}

/-! ### What the parts of a number take -/

theorem scanDigits_parts (cs : List Char) : (scanDigits cs).1 ++ (scanDigits cs).2 = cs :=
  List.takeWhile_append_dropWhile

theorem isDigit_scanDigits (cs : List Char) : ∀ c ∈ (scanDigits cs).1, c.isDigit = true :=
  fun _ => List.mem_takeWhile_imp

theorem scanDigits_append (digits : ∀ c ∈ ds, c.isDigit = true) (rest : List Char) :
    scanDigits (ds ++ rest) = (ds ++ (scanDigits rest).1, (scanDigits rest).2) := by
  simp only [scanDigits, List.takeWhile_append_of_pos digits, List.dropWhile_append_of_pos digits]

theorem scanDigits_stop (stop : ∀ c ∈ rest.head?, c.isDigit = false) : scanDigits rest = ([], rest) := by
  cases rest with
  | nil => rfl
  | cons c rest => simp [scanDigits, stop c rfl]

theorem scanDigits_exact (digits : ∀ c ∈ ds, c.isDigit = true) (stop : ∀ c ∈ rest.head?, c.isDigit = false) :
    scanDigits (ds ++ rest) = (ds, rest) := by
  rw [scanDigits_append digits, scanDigits_stop stop, List.append_nil]

theorem scanSign_spec (cs : List Char) : (scanSign cs).1 ++ (scanSign cs).2 = cs ∧ IsSign (scanSign cs).1 := by
  unfold scanSign
  split
  · exact ⟨rfl, .plus⟩
  · exact ⟨rfl, .minus⟩
  · exact ⟨rfl, .none⟩

theorem scanSign_exact {c : Char} (sign : IsSign a) (plus : c ≠ '+') (minus : c ≠ '-') (rest : List Char) :
    scanSign (a ++ c :: rest) = (a, c :: rest) := by
  cases sign <;> simp [scanSign, plus, minus]

theorem scanFraction_spec (cs : List Char) :
    (scanFraction cs).1 ++ (scanFraction cs).2 = cs ∧ IsFraction (scanFraction cs).1 := by
  unfold scanFraction
  split
  · rename_i cs
    dsimp only
    split
    · exact ⟨rfl, .none⟩
    · rename_i some
      exact ⟨congrArg _ (scanDigits_parts cs), .some ⟨some, isDigit_scanDigits cs⟩⟩
  · exact ⟨rfl, .none⟩

theorem scanFraction_digits (h : IsDigits ds) (rest : List Char) :
    scanFraction ('.' :: (ds ++ rest)) = ('.' :: (ds ++ (scanDigits rest).1), (scanDigits rest).2) := by
  simp [scanFraction, scanDigits_append h.isDigit, h.ne_nil]

theorem scanFraction_stop (stop : ∀ c ∈ rest.head?, c ≠ '.') : scanFraction rest = ([], rest) := by
  unfold scanFraction
  split
  · exact absurd rfl (stop '.' rfl)
  · rfl

theorem scanPower_spec (cs : List Char) : (scanPower cs).1 ++ (scanPower cs).2 = cs ∧ IsPower (scanPower cs).1 := by
  unfold scanPower
  split
  · exact ⟨rfl, .none⟩
  · rename_i c cs
    dsimp only
    split
    · rename_i mark
      split
      · exact ⟨rfl, .none⟩
      · rename_i some
        obtain ⟨parts, sign⟩ := scanSign_spec cs
        refine ⟨?_, .some mark sign ⟨some, isDigit_scanDigits _⟩⟩
        dsimp only
        rw [List.append_assoc, scanDigits_parts, List.cons_append, parts]
    · exact ⟨rfl, .none⟩

theorem scanPower_mark {c : Char} (mark : c = 'e' ∨ c = 'E') (sign : IsSign a) (h : IsDigits ds) (rest : List Char) :
    scanPower (c :: (a ++ (ds ++ rest))) = (c :: (a ++ (ds ++ (scanDigits rest).1)), (scanDigits rest).2) := by
  have signed : scanSign (a ++ (ds ++ rest)) = (a, ds ++ rest) := by
    obtain ⟨d, tail, rfl, digit⟩ := h.exists_cons
    exact scanSign_exact sign (ne_of_isDigit digit (by decide)) (ne_of_isDigit digit (by decide)) _
  simp [scanPower, mark, signed, scanDigits_append h.isDigit, h.ne_nil]

/-! ### Decimals -/

theorem scanDecimal?_sound (h : scanDecimal? cs = some (a, rest)) : a ++ rest = cs ∧ IsDecimal a := by
  unfold scanDecimal? at h
  dsimp only at h
  split at h
  · cases h
  · rename_i some
    obtain ⟨rfl, rfl⟩ := Prod.mk.inj (Option.some.inj h)
    obtain ⟨parts, fraction⟩ := scanFraction_spec (scanDigits cs).2
    refine ⟨?_, .intro ⟨some, isDigit_scanDigits cs⟩ fraction⟩
    rw [List.append_assoc, parts, scanDigits_parts]

theorem scanDecimal?_whole (h : IsDigits ds) (rest : List Char) :
    scanDecimal? (ds ++ rest) =
      some (ds ++ (scanDigits rest).1 ++ (scanFraction (scanDigits rest).2).1, (scanFraction (scanDigits rest).2).2) := by
  simp [scanDecimal?, scanDigits_append h.isDigit, h.ne_nil]

theorem scanDecimal?_point (h : IsDigits ds) (h' : IsDigits a) (rest : List Char) :
    scanDecimal? (ds ++ '.' :: a ++ rest) = some (ds ++ '.' :: (a ++ (scanDigits rest).1), (scanDigits rest).2) := by
  have point : scanDigits ('.' :: (a ++ rest)) = ([], '.' :: (a ++ rest)) := scanDigits_stop (by simp)
  rw [List.append_assoc, List.cons_append, scanDecimal?_whole h, point]
  simp [scanFraction_digits h']

theorem scanDecimal?_exact (h : IsDecimal a) (stop : ∀ c ∈ rest.head?, c.isDigit = false ∧ c ≠ '.') :
    scanDecimal? (a ++ rest) = some (a, rest) := by
  have digitless : scanDigits rest = ([], rest) := scanDigits_stop fun c head => (stop c head).1
  obtain ⟨whole, fraction⟩ := h
  cases fraction with
  | none =>
    have pointless : scanFraction rest = ([], rest) := scanFraction_stop fun c head => (stop c head).2
    simp [scanDecimal?_whole whole, digitless, pointless]
  | some digits => simpa [digitless] using scanDecimal?_point whole digits rest

/-- Whatever follows a decimal, at least the decimal is taken. -/
theorem scanDecimal?_reach (h : IsDecimal a) (rest : List Char) :
    ∃ b rest', scanDecimal? (a ++ rest) = some (b, rest') ∧ a.length ≤ b.length := by
  obtain ⟨whole, fraction⟩ := h
  cases fraction with
  | none =>
    rw [List.append_nil]
    refine ⟨_, _, scanDecimal?_whole whole rest, ?_⟩
    simp only [List.length_append]
    omega
  | some digits =>
    refine ⟨_, _, scanDecimal?_point whole digits rest, ?_⟩
    simp only [List.length_append, List.length_cons]
    omega

/-! ### Floats -/

theorem scanFloat?_eq (cs : List Char) :
    scanFloat? cs = (scanDecimal? (scanSign cs).2).map fun (decimal, rest) =>
      ((scanSign cs).1 ++ decimal ++ (scanPower rest).1, (scanPower rest).2) := by
  unfold scanFloat?
  generalize scanSign cs = signed
  obtain ⟨sign, rest⟩ := signed
  dsimp only
  cases scanDecimal? rest <;> rfl

theorem scanFloat?_sound (h : scanFloat? cs = some (a, rest)) : a ++ rest = cs ∧ IsFloat a := by
  rw [scanFloat?_eq] at h
  obtain ⟨⟨decimal, rest'⟩, scanned, h⟩ := Option.map_eq_some_iff.mp h
  obtain ⟨rfl, rfl⟩ := Prod.mk.inj h
  obtain ⟨signed, sign⟩ := scanSign_spec cs
  obtain ⟨parts, isDecimal⟩ := scanDecimal?_sound scanned
  obtain ⟨powered, power⟩ := scanPower_spec rest'
  refine ⟨?_, .intro sign isDecimal power⟩
  rw [List.append_assoc, List.append_assoc, powered, parts, signed]

theorem scanFloat?_of_parts {sign decimal : List Char} (h : IsSign sign) (h' : IsDecimal decimal)
    (scanned : scanDecimal? (decimal ++ rest) = some (b, x)) :
    scanFloat? (sign ++ (decimal ++ rest)) = some (sign ++ b ++ (scanPower x).1, (scanPower x).2) := by
  have signed : scanSign (sign ++ (decimal ++ rest)) = (sign, decimal ++ rest) := by
    obtain ⟨c, tail, rfl, digit⟩ := h'.exists_cons
    exact scanSign_exact h (ne_of_isDigit digit (by decide)) (ne_of_isDigit digit (by decide)) _
  simp [scanFloat?_eq, signed, scanned]

theorem scanFloat?_reach (h : IsFloat a) (rest : List Char) :
    ∃ b rest', scanFloat? (a ++ rest) = some (b, rest') ∧ a.length ≤ b.length := by
  obtain ⟨sign, decimal, power⟩ := h
  cases power with
  | none =>
    obtain ⟨b, x, scanned, reach⟩ := scanDecimal?_reach decimal rest
    rw [List.append_nil, List.append_assoc]
    refine ⟨_, _, scanFloat?_of_parts sign decimal scanned, ?_⟩
    simp only [List.length_append]
    omega
  | @some c sign' ds mark signed digits =>
    -- The mark ends the decimal.
    have stop : ∀ d ∈ (c :: (sign' ++ ds) ++ rest).head?, d.isDigit = false ∧ d ≠ '.' := by
      rcases mark with rfl | rfl <;> simp
    have scanned := scanDecimal?_exact decimal stop
    rw [List.append_assoc, List.append_assoc]
    refine ⟨_, _, scanFloat?_of_parts sign decimal scanned, ?_⟩
    have powered := scanPower_mark mark signed digits rest
    rw [← List.append_assoc sign'] at powered
    rw [List.cons_append, powered]
    simp only [List.length_append, List.length_cons]
    omega

theorem scanFloat?_eq_none_iff : scanFloat? cs = none ↔ IsLongest cs none := by
  constructor
  · rintro failed p ⟨rest, rfl⟩ float
    obtain ⟨b, rest', scanned, -⟩ := scanFloat?_reach float rest
    simp [failed] at scanned
  · intro longest
    rw [Option.eq_none_iff_forall_ne_some]
    rintro ⟨a, rest⟩ scanned
    obtain ⟨parts, float⟩ := scanFloat?_sound scanned
    exact longest a ⟨rest, parts⟩ float

theorem scanFloat?_eq_some_iff :
    scanFloat? cs = some (a, rest) ↔ a ++ rest = cs ∧ IsFloat a ∧ IsLongest cs (some a) := by
  constructor
  · intro scanned
    obtain ⟨parts, float⟩ := scanFloat?_sound scanned
    refine ⟨parts, float, ?_⟩
    rintro p ⟨rest', rfl⟩ shorter
    obtain ⟨b, x, again, reach⟩ := scanFloat?_reach shorter rest'
    obtain ⟨rfl, rfl⟩ := Prod.mk.inj (Option.some.inj (again.symm.trans scanned))
    exact reach
  · rintro ⟨rfl, float, longest⟩
    -- No less than `a` is taken, and what is taken is a number itself.
    obtain ⟨b, x, scanned, reach⟩ := scanFloat?_reach float rest
    obtain ⟨parts, other⟩ := scanFloat?_sound scanned
    have bound : b.length ≤ a.length := longest b ⟨x, parts⟩ other
    obtain ⟨rfl, rfl⟩ := List.append_inj parts (by omega)
    exact scanned

theorem isLongest_append (stop : ∀ c ∈ rest.head?, isNumberChar c = false) :
    IsLongest (a ++ rest) (some a) := by
  intro p initial float
  by_contra longer
  obtain ⟨x, rfl⟩ : a <+: p := List.prefix_of_prefix_length_le (List.prefix_append a rest) initial (by omega)
  cases x with
  | nil => simp at longer
  | cons c x =>
    rw [List.prefix_append_right_inj] at initial
    obtain ⟨y, rfl⟩ := initial
    have inside := float.isNumberChar c (by simp)
    simp [stop c rfl] at inside

/-! ### Units -/

/-- What may follow a unit without becoming part of it. -/
def EndsUnit (rest : List Char) : Prop :=
  ∀ c ∈ rest.head?, isSymbolChar c = false ∧ c.isDigit = false ∧ c ≠ '-'

theorem operator?_eq_some_iff {c : Char} : operator? c = some operator ↔ IsOperator c operator := by
  constructor
  · intro h
    unfold operator? at h
    split at h
    · cases h
      exact .times (by decide)
    · cases h
      exact .times (by decide)
    · cases h
      exact .times (by decide)
    · cases h
      exact .per
    · cases h
  · rintro (listed | -)
    · simp [timesSigns] at listed
      rcases listed with rfl | rfl | rfl <;> rfl
    · rfl

theorem IsOperator.ends {c : Char} (h : IsOperator c operator) :
    isSymbolChar c = false ∧ c.isDigit = false ∧ c ≠ '-' := by
  obtain listed | - := h
  · simp [timesSigns] at listed
    rcases listed with rfl | rfl | rfl <;> decide
  · decide

theorem ofChars?_eq_some_iff {e : Exponent} : Exponent.ofChars? cs = some e ↔ readInt? cs = some e.val := by
  unfold Exponent.ofChars?
  rw [Option.bind_eq_some_iff]
  constructor
  · rintro ⟨n, read, same⟩
    rw [read, Exponent.ofInt?_eq_some_iff.mp same]
  · intro read
    exact ⟨e.val, read, Exponent.ofInt?_eq_some_iff.mpr rfl⟩

theorem scanMinus_cases (cs : List Char) :
    (∃ tail, cs = '-' :: tail ∧ scanMinus cs = (['-'], tail)) ∨ scanMinus cs = ([], cs) := by
  unfold scanMinus
  split
  · exact .inl ⟨_, rfl, rfl⟩
  · exact .inr rfl

theorem scanMinus_none (stop : ∀ c ∈ cs.head?, c ≠ '-') : scanMinus cs = ([], cs) := by
  rcases scanMinus_cases cs with ⟨tail, rfl, -⟩ | same
  · exact absurd rfl (stop '-' rfl)
  · exact same

theorem scanExponent?_sound (h : scanExponent? cs = some (e, rest)) :
    ∃ power, power ++ rest = cs ∧ IsExponent power e := by
  unfold scanExponent? at h
  dsimp only at h
  split at h
  · cases h
    exact ⟨[], rfl, .none⟩
  · rename_i some
    obtain ⟨exponent, read, h⟩ := Option.map_eq_some_iff.mp h
    cases h
    have digits : IsDigits (scanDigits (scanMinus cs).2).1 := ⟨some, isDigit_scanDigits _⟩
    have parts := scanDigits_parts (scanMinus cs).2
    rw [ofChars?_eq_some_iff] at read
    rcases scanMinus_cases cs with ⟨tail, rfl, same⟩ | same
    · rw [same] at read digits parts ⊢
      refine ⟨_, congrArg ('-' :: ·) parts, .negative digits ?_⟩
      exact (Option.some.inj ((readInt?_minus digits).symm.trans read)).symm
    · rw [same] at read digits parts ⊢
      refine ⟨_, parts, .positive digits ?_⟩
      exact (Option.some.inj ((readInt?_digits digits).symm.trans read)).symm

theorem scanExponent?_digits {e : Exponent} (digits : IsDigits ds) (value : e.val = Nat.ofDigitChars 10 ds 0)
    (stop : ∀ c ∈ rest.head?, c.isDigit = false) : scanExponent? (ds ++ rest) = some (some e, rest) := by
  have minus : scanMinus (ds ++ rest) = ([], ds ++ rest) := by
    obtain ⟨c, tail, rfl, digit⟩ := digits.exists_cons
    exact scanMinus_none (by simpa using ne_of_isDigit digit (by decide))
  have read := ofChars?_eq_some_iff.mpr ((readInt?_digits digits).trans (congrArg some value.symm))
  simp only [scanExponent?, minus, scanDigits_exact digits.isDigit stop, if_neg digits.ne_nil, List.nil_append, read]
  rfl

theorem scanExponent?_exact (h : IsExponent p e) (ends : EndsUnit rest) :
    scanExponent? (p ++ rest) = some (e, rest) := by
  have stop : ∀ c ∈ rest.head?, c.isDigit = false := fun c head => (ends c head).2.1
  cases h with
  | none =>
    have minus : scanMinus rest = ([], rest) := scanMinus_none fun c head => (ends c head).2.2
    simp [scanExponent?, minus, scanDigits_stop stop]
  | positive digits value =>
    exact scanExponent?_digits digits value stop
  | negative digits value =>
    have read := ofChars?_eq_some_iff.mpr ((readInt?_minus digits).trans (congrArg some value.symm))
    simp only [scanExponent?, scanMinus, List.cons_append, scanDigits_exact digits.isDigit stop,
      if_neg digits.ne_nil, List.nil_append, read]
    rfl

theorem IsExponent.head {c : Char} (h : IsExponent p e) (ends : EndsUnit rest) (head : c ∈ (p ++ rest).head?) :
    isSymbolChar c = false := by
  cases h with
  | none => exact (ends c head).1
  | positive digits =>
    obtain ⟨d, tail, rfl, isDigit⟩ := digits.exists_cons
    obtain rfl : d = c := by simpa using head
    exact not_isSymbolChar isDigit
  | negative =>
    obtain rfl : '-' = c := by simpa using head
    decide

theorem scanUnit?_sound (h : scanUnit? operator cs = some (t, rest)) : ∃ u, u ++ rest = cs ∧ IsUnit operator u t := by
  unfold scanUnit? at h
  dsimp only at h
  split at h
  · cases h
  · rename_i fits
    obtain ⟨⟨e, rest'⟩, scanned, h⟩ := Option.map_eq_some_iff.mp h
    cases h
    obtain ⟨power, parts, exponent⟩ := scanExponent?_sound scanned
    rw [not_or, maxSpelling, Nat.not_lt] at fits
    refine ⟨_, ?_, .intro ⟨fits.1, fun c => List.mem_takeWhile_imp, fits.2⟩ exponent⟩
    rw [List.append_assoc, parts, List.takeWhile_append_dropWhile]

theorem scanUnit?_exact (h : IsUnit operator u t) (ends : EndsUnit rest) :
    scanUnit? operator (u ++ rest) = some (t, rest) := by
  obtain ⟨spelling, exponent⟩ := h
  have stop := fun c => exponent.head (c := c) ends
  have taken := takeWhile_append_stop spelling.isSymbolChar stop
  have left := dropWhile_append_stop spelling.isSymbolChar stop
  have fits : ¬(_ = [] ∨ maxSpelling < List.length _) := not_or.mpr ⟨spelling.ne_nil, Nat.not_lt.mpr spelling.length_le⟩
  rw [List.append_assoc]
  simp only [scanUnit?, taken, left, if_neg fits, scanExponent?_exact exponent ends]
  rfl

theorem scanUnit?_digits {spelling : List Char} {e : Exponent} (h : IsSpelling spelling) (digits : IsDigits ds)
    (value : e.val = Nat.ofDigitChars 10 ds 0) (stop : ∀ c ∈ rest.head?, c.isDigit = false) :
    scanUnit? operator (spelling ++ (ds ++ rest)) = some (⟨operator, spelling, some e⟩, rest) := by
  have head : ∀ c ∈ (ds ++ rest).head?, isSymbolChar c = false := by
    obtain ⟨d, tail, rfl, digit⟩ := digits.exists_cons
    intro c head
    obtain rfl : d = c := Option.some.inj head
    exact not_isSymbolChar digit
  have taken := takeWhile_append_stop h.isSymbolChar head
  have left := dropWhile_append_stop h.isSymbolChar head
  have fits : ¬(spelling = [] ∨ maxSpelling < spelling.length) := not_or.mpr ⟨h.ne_nil, Nat.not_lt.mpr h.length_le⟩
  simp only [scanUnit?, taken, left, if_neg fits, scanExponent?_digits digits value stop]
  rfl

theorem spelling_of_scanUnit? (h : scanUnit? operator cs = some (t, rest)) :
    t.spelling = cs.takeWhile isSymbolChar := by
  unfold scanUnit? at h
  dsimp only at h
  split at h
  · cases h
  · obtain ⟨scanned, -, h⟩ := Option.map_eq_some_iff.mp h
    cases h
    rfl

/-! ### Further units -/

theorem scanTail?_of_not_operator {c : Char} (h : operator? c = none) : scanTail? (c :: cs) = none := by
  rw [scanTail?, h]

theorem scanTail?_of_no_unit {c : Char} (h : IsOperator c operator) (scanned : scanUnit? operator cs = none) :
    scanTail? (c :: cs) = none := by
  rw [scanTail?, operator?_eq_some_iff.mpr h]
  dsimp only
  split
  · rfl
  · rename_i same
    simp [scanned] at same

theorem scanTail?_of_operator {c : Char} (h : IsOperator c operator) (scanned : scanUnit? operator cs = some (t, rest)) :
    scanTail? (c :: cs) = (scanTail? rest).map (t :: ·) := by
  rw [scanTail?, operator?_eq_some_iff.mpr h]
  dsimp only
  split
  · rename_i failed
    simp [scanned] at failed
  · rename_i same
    obtain ⟨rfl, rfl⟩ := Prod.mk.inj (Option.some.inj (scanned.symm.trans same))
    rfl

theorem scanTail?_cons_ok {c : Char} (h : scanTail? (c :: cs) = some ts) :
    ∃ operator t rest ts', IsOperator c operator ∧ scanUnit? operator cs = some (t, rest) ∧
      scanTail? rest = some ts' ∧ ts = t :: ts' := by
  rw [scanTail?] at h
  split at h
  · cases h
  · rename_i operator sign
    split at h
    · cases h
    · rename_i t rest scanned
      obtain ⟨ts', more, rfl⟩ := Option.map_eq_some_iff.mp h
      exact ⟨operator, t, rest, ts', operator?_eq_some_iff.mp sign, scanned, more, rfl⟩

theorem IsTail.ends (h : IsTail tail ts) : EndsUnit tail := by
  cases h with
  | nil => nofun
  | cons operator =>
    intro c head
    obtain rfl := Option.some.inj head
    exact operator.ends

theorem IsTail.ends_append (h : IsTail tail ts) (ends : EndsUnit rest) : EndsUnit (tail ++ rest) := by
  cases h with
  | nil => exact ends
  | cons operator =>
    intro c head
    obtain rfl := Option.some.inj head
    exact operator.ends

theorem scanTail?_append (h : IsTail tail ts) (ends : EndsUnit rest) :
    scanTail? (tail ++ rest) = (scanTail? rest).map (ts ++ ·) := by
  induction h with
  | nil => simp
  | cons operator unit more ih =>
    rw [List.cons_append, List.append_assoc,
      scanTail?_of_operator operator (scanUnit?_exact unit (more.ends_append ends)), ih, Option.map_map]
    rfl

theorem scanTail?_eq_some_iff : scanTail? cs = some ts ↔ IsTail cs ts := by
  constructor
  · intro h
    -- On the length, as a unit takes any number of characters.
    induction size : cs.length using Nat.strong_induction_on generalizing cs ts with
    | _ n ih =>
      cases cs with
      | nil =>
        rw [scanTail?] at h
        cases h
        exact .nil
      | cons c cs =>
        obtain ⟨operator, t, rest, ts', sign, scanned, more, rfl⟩ := scanTail?_cons_ok h
        have shorter : rest.length < n := by
          rw [← size, List.length_cons]
          exact Nat.lt_succ_of_le (length_of_scanUnit? scanned)
        obtain ⟨u, rfl, unit⟩ := scanUnit?_sound scanned
        exact .cons sign unit (ih _ shorter more rfl)
  · intro h
    have nothing : EndsUnit [] := by simp [EndsUnit]
    have scanned := scanTail?_append h nothing
    rw [List.append_nil] at scanned
    simp [scanned, scanTail?]

/-! ### Money -/

theorem isMoneyLetter_iff {c : Char} : isMoneyLetter c = true ↔ c ∈ moneyLetters := by
  by_cases ascii : c.toNat < 128
  · have table : ∀ n < 128, isMoneyLetter (Char.ofNat n) = true ↔ Char.ofNat n ∈ moneyLetters := by decide +kernel
    have listed := table c.toNat ascii
    rwa [Char.ofNat_toNat] at listed
  · -- Beyond ASCII a character is its own capital.
    have upper : c.toUpper = c := by
      unfold Char.toUpper
      rw [dif_neg]
      rintro ⟨-, low⟩
      have bound : c.val.toNat ≤ 122 := low
      exact ascii (Nat.lt_of_le_of_lt bound (by decide))
    have listed : ∀ d ∈ moneyLetters, d.toNat < 128 := by simp [moneyLetters]
    constructor
    · intro letter
      rw [isMoneyLetter, upper] at letter
      simp at letter
      rcases letter with rfl | rfl | rfl | rfl <;> decide
    · intro letter
      exact absurd (listed c letter) ascii

theorem scanLetter_sound {letter : Option Char} (h : scanLetter cs = (letter, rest)) :
    letter.toList ++ rest = cs ∧ ∀ c ∈ letter, c ∈ moneyLetters := by
  unfold scanLetter at h
  split at h
  · split at h
    · rename_i listed
      obtain ⟨rfl, rfl⟩ := Prod.mk.inj h
      refine ⟨rfl, ?_⟩
      intro d same
      obtain rfl := Option.some.inj same
      exact isMoneyLetter_iff.mp listed
    · obtain ⟨rfl, rfl⟩ := Prod.mk.inj h
      exact ⟨rfl, nofun⟩
  · obtain ⟨rfl, rfl⟩ := Prod.mk.inj h
    exact ⟨rfl, nofun⟩

theorem scanLetter_none (stop : ∀ c ∈ rest.head?, c ∉ moneyLetters) : scanLetter rest = (none, rest) := by
  cases rest with
  | nil => rfl
  | cons c rest =>
    have other : isMoneyLetter c = false := by
      rw [← Bool.not_eq_true, isMoneyLetter_iff]
      exact stop c rfl
    simp [scanLetter, other]

theorem scanLetter_exact {letter : Option Char} (h : ∀ c ∈ letter, c ∈ moneyLetters)
    (stop : ∀ c ∈ rest.head?, c ∉ moneyLetters) : scanLetter (letter.toList ++ rest) = (letter, rest) := by
  cases letter with
  | none => exact scanLetter_none stop
  | some c => simp [scanLetter, isMoneyLetter_iff.mpr (h c rfl)]

theorem isSymbolChar_moneyLetters : ∀ c ∈ moneyLetters, isSymbolChar c = true :=
  List.all_eq_true.mp rfl

theorem IsTail.not_letter (h : IsTail tail ts) : ∀ c ∈ tail.head?, c ∉ moneyLetters := by
  cases h with
  | nil => nofun
  | cons operator =>
    intro c head letter
    obtain rfl := Option.some.inj head
    exact ne_of_isSymbolChar (isSymbolChar_moneyLetters _ letter) operator.ends.1 rfl

theorem scanMoney?_sound {expression : Expression} (h : scanMoney? cs = some expression) : IsMoney cs expression := by
  obtain ⟨signed, sign⟩ := scanSign_spec cs
  unfold scanMoney? at h
  generalize scanSign cs = front at h signed sign
  obtain ⟨front, rest⟩ := front
  dsimp only at h signed sign
  split at h
  · cases h
  · rename_i symbol rest
    split at h
    · rename_i currency
      obtain ⟨⟨amount, rest⟩, scanned, h⟩ := Option.bind_eq_some_iff.mp h
      obtain ⟨parts, decimal⟩ := scanDecimal?_sound scanned
      dsimp only at h
      cases lettered : scanLetter rest with
      | mk letter rest =>
        rw [lettered] at h
        obtain ⟨more, listed⟩ := scanLetter_sound lettered
        obtain ⟨tokens, trailing, h⟩ := Option.bind_eq_some_iff.mp h
        cases h
        rw [← signed, ← parts, ← more]
        exact .intro sign currency decimal listed (scanTail?_eq_some_iff.mp trailing)
    · cases h

theorem scanMoney?_exact {symbol : Char} {letter : Option Char} (sign : IsSign p)
    (currency : isCurrencySymbol symbol = true) (decimal : IsDecimal a) (listed : ∀ c ∈ letter, c ∈ moneyLetters)
    (stop : ∀ c ∈ rest.head?, c ∉ moneyLetters ∧ c.isDigit = false ∧ c ≠ '.') :
    scanMoney? (p ++ symbol :: (a ++ (letter.toList ++ rest))) =
      (scanTail? rest).map (.money (p = ['-']) symbol a letter ·) := by
  obtain ⟨plus, minus, -⟩ := isCurrencySymbol_spec currency
  have letters : ∀ c ∈ moneyLetters, c.isDigit = false ∧ c ≠ '.' := by simp [moneyLetters, Char.isDigit]
  have ends : ∀ c ∈ (letter.toList ++ rest).head?, c.isDigit = false ∧ c ≠ '.' := by
    cases letter with
    | none => exact fun c head => (stop c head).2
    | some d => simpa using letters d (listed d rfl)
  unfold scanMoney?
  rw [scanSign_exact sign plus minus]
  simp only [currency, if_true, scanDecimal?_exact decimal ends, Option.bind_eq_bind, Option.bind_some,
    scanLetter_exact listed fun c head => (stop c head).1]
  cases scanTail? rest <;> rfl

theorem scanMoney?_eq_some_iff {expression : Expression} : scanMoney? cs = some expression ↔ IsMoney cs expression := by
  refine ⟨scanMoney?_sound, ?_⟩
  rintro ⟨sign, currency, decimal, listed, tail⟩
  rw [scanMoney?_exact sign currency decimal listed, scanTail?_eq_some_iff.mpr tail]
  · rfl
  · intro c head
    refine ⟨tail.not_letter c head, ?_⟩
    refine ⟨(tail.ends c head).2.1, ?_⟩
    rintro rfl
    cases tail with
    | nil => cases head
    | cons operator =>
      obtain rfl := Option.some.inj head
      cases operator with
      | times listed => exact absurd listed (by decide)

/-! ### Physical quantities -/

theorem scanLeading_spec (cs : List Char) :
    ∃ leading, leading ++ (scanLeading cs).2 = cs ∧ IsLeading leading (scanLeading cs).1 := by
  unfold scanLeading
  split
  · exact ⟨['/'], rfl, .per⟩
  · exact ⟨[], rfl, .times⟩

theorem scanLeading_exact {c : Char} (h : IsLeading p operator) (slash : c ≠ '/') (rest : List Char) :
    scanLeading (p ++ c :: rest) = (operator, c :: rest) := by
  cases h <;> simp [scanLeading, slash]

theorem scanAmount_spec (cs : List Char) :
    ∃ front, front ++ (scanAmount cs).2 = cs ∧ IsAmount front (scanAmount cs).1 ∧ IsLongest cs (scanAmount cs).1 := by
  unfold scanAmount
  split
  · rename_i amount rest scanned
    obtain ⟨parts, float, longest⟩ := scanFloat?_eq_some_iff.mp scanned
    exact ⟨amount ++ [' '], by simpa using parts, .spaced float, longest⟩
  · rename_i amount rest _ scanned
    obtain ⟨parts, float, longest⟩ := scanFloat?_eq_some_iff.mp scanned
    exact ⟨amount, parts, .tight float, longest⟩
  · rename_i scanned
    exact ⟨[], rfl, .none, scanFloat?_eq_none_iff.mp scanned⟩

theorem scanAmount_exact {amount : Option (List Char)} (h : IsAmount p amount) (longest : IsLongest (p ++ rest) amount)
    (stop : ∀ c ∈ rest.head?, c ≠ ' ') : scanAmount (p ++ rest) = (amount, rest) := by
  unfold scanAmount
  cases h with
  | none => rw [scanFloat?_eq_none_iff.mpr longest]; rfl
  | tight float =>
    rw [scanFloat?_eq_some_iff.mpr ⟨rfl, float, longest⟩]
    split
    · rename_i same
      obtain ⟨-, rfl⟩ := Prod.mk.inj (Option.some.inj same)
      exact absurd rfl (stop ' ' rfl)
    · rename_i same
      obtain ⟨rfl, rfl⟩ := Prod.mk.inj (Option.some.inj same)
      rfl
    · rename_i same
      cases same
  | spaced float =>
    rw [List.append_assoc] at longest ⊢
    rw [scanFloat?_eq_some_iff.mpr ⟨rfl, float, longest⟩]
    rfl

theorem scanPhysical?_sound {expression : Expression} (h : scanPhysical? cs = some expression) :
    ∃ amount tokens, expression = .physical amount tokens ∧ IsPhysical cs expression ∧ IsLongest cs amount := by
  obtain ⟨front, fronted, amount, longest⟩ := scanAmount_spec cs
  unfold scanPhysical? at h
  generalize scanAmount cs = scanned at h fronted amount longest
  obtain ⟨amount, rest⟩ := scanned
  obtain ⟨leading, led, operator⟩ := scanLeading_spec rest
  dsimp only at h fronted
  generalize scanLeading rest = scanned at h led operator
  obtain ⟨operator, rest⟩ := scanned
  dsimp only at h led
  obtain ⟨⟨t, rest⟩, scanned, h⟩ := Option.bind_eq_some_iff.mp h
  obtain ⟨u, parts, unit⟩ := scanUnit?_sound scanned
  obtain ⟨tokens, trailing, h⟩ := Option.bind_eq_some_iff.mp h
  cases h
  refine ⟨_, _, rfl, ?_, longest⟩
  rw [← fronted, ← led, ← parts]
  exact .intro amount operator unit (scanTail?_eq_some_iff.mp trailing)

theorem scanPhysical?_exact {front : List Char} {amount : Option (List Char)} (h : IsAmount front amount)
    (longest : IsLongest (front ++ (p ++ (u ++ rest))) amount) (leading : IsLeading p operator)
    (unit : IsUnit operator u t) (ends : EndsUnit rest) :
    scanPhysical? (front ++ (p ++ (u ++ rest))) = (scanTail? rest).map (.physical amount <| t :: ·) := by
  obtain ⟨c, tail, same, letter⟩ := unit.exists_cons
  have space : ∀ d ∈ (p ++ (u ++ rest)).head?, d ≠ ' ' := by
    cases leading with
    | times => simpa [same] using ne_of_isSymbolChar letter (by decide)
    | per => simp
  have slash : scanLeading (p ++ (u ++ rest)) = (operator, u ++ rest) := by
    rw [same]
    exact scanLeading_exact leading (ne_of_isSymbolChar letter (by decide)) _
  unfold scanPhysical?
  simp only [scanAmount_exact h longest space, slash, scanUnit?_exact unit ends, Option.bind_eq_bind,
    Option.bind_some]
  cases scanTail? rest <;> rfl

theorem scanPhysical?_eq_some_iff {expression : Expression} :
    scanPhysical? cs = some expression ↔
      ∃ amount tokens, expression = .physical amount tokens ∧ IsPhysical cs expression ∧ IsLongest cs amount := by
  refine ⟨scanPhysical?_sound, ?_⟩
  rintro ⟨amount, tokens, rfl, ⟨front, leading, unit, tail⟩, longest⟩
  rw [scanPhysical?_exact front longest leading unit tail.ends, scanTail?_eq_some_iff.mpr tail]
  rfl

/-- Divisors after a number are scanned like any further units. -/
theorem scanPhysical?_divisors (h : IsFloat a) (cs : List Char) :
    scanPhysical? (a ++ '/' :: cs) = (scanTail? ('/' :: cs)).map (.physical (some a)) := by
  have amount : scanAmount (a ++ '/' :: cs) = (some a, '/' :: cs) :=
    scanAmount_exact (.tight h) (isLongest_append (by simp [isNumberChar])) (by simp)
  unfold scanPhysical?
  simp only [amount, scanLeading, Option.bind_eq_bind]
  cases scanned : scanUnit? .per cs with
  | none => rw [scanTail?_of_no_unit .per scanned]; rfl
  | some taken =>
    rw [scanTail?_of_operator .per scanned, Option.bind_some]
    cases scanTail? taken.2 <;> rfl

/-! ### Whole texts -/

theorem scan?_of_float (h : IsFloat a) (rest : List Char) : scan? (a ++ rest) = scanPhysical? (a ++ rest) := by
  obtain ⟨c, head, digit⟩ := h.unsigned rest
  have money : scanMoney? (a ++ rest) = none := by
    rw [Option.eq_none_iff_forall_ne_some]
    intro e scanned
    obtain ⟨c', head', currency⟩ := (scanMoney?_sound scanned).unsigned
    obtain rfl : c = c' := Option.some.inj (head.symm.trans head')
    simp [(isCurrencySymbol_spec currency).2.2.2.1] at digit
  rw [scan?, money, Option.none_or]

theorem scan?_product {gap : List Char} (h : IsFloat a) (spaced : gap = [' '] ∨ gap = [])
    (stop : ∀ c ∈ (gap ++ (u ++ tail)).head?, isNumberChar c = false) (unit : IsUnit .times u t) (more : IsTail tail ts) :
    scan? (a ++ (gap ++ (u ++ tail))) = some (.physical (some a) (t :: ts)) := by
  have front : IsAmount (a ++ gap) (some a) := by
    rcases spaced with rfl | rfl
    · exact .spaced h
    · rw [List.append_nil]
      exact .tight h
  have longest := isLongest_append (a := a) stop
  rw [← List.append_assoc] at longest
  have scanned := scanPhysical?_exact (p := []) front longest .times unit more.ends
  rw [List.nil_append, List.append_assoc, scanTail?_eq_some_iff.mpr more] at scanned
  rw [scan?_of_float h, scanned, Option.map_some]

theorem scan?_eq_some_iff {expression : Expression} : scan? cs = some expression ↔ Derives cs expression := by
  unfold scan?
  rw [Option.or_eq_some_iff, scanMoney?_eq_some_iff, scanPhysical?_eq_some_iff]
  constructor
  · rintro (money | ⟨-, amount, tokens, rfl, physical, longest⟩)
    · exact .money money
    · exact .physical physical longest
  · rintro (money | ⟨physical, longest⟩)
    · exact .inl money
    · refine .inr ⟨?_, _, _, rfl, physical, longest⟩
      rw [Option.eq_none_iff_forall_ne_some]
      intro other scanned
      exact (scanMoney?_sound scanned).not_physical physical

/-- A spelling by itself is one unit without an amount. -/
theorem scan?_spelling (h : IsSpelling cs) : scan? cs = some (.physical none [⟨.times, cs, none⟩]) := by
  have derived := IsPhysical.intro .none .times (IsUnit.intro h .none) .nil
  simp only [List.nil_append, List.append_nil] at derived
  refine scan?_eq_some_iff.mpr (.physical derived ?_)
  rintro p ⟨rest, rfl⟩ float
  obtain ⟨c, head, digit⟩ := float.unsigned rest
  have letter : isSymbolChar c = true :=
    h.isSymbolChar c ((List.dropWhile_sublist _).subset (List.mem_of_head? head))
  rw [isDigit_of_isSymbolChar letter] at digit
  cases digit

/-- A text is read as the one expression that the grammar derives from it, and refused where there is none. -/
theorem scan?_derivation (cs : List Char) :
    (∀ expression, scan? cs = some expression ↔ Derives cs expression) ∧
      (∀ money physical, IsMoney cs money → ¬IsPhysical cs physical) ∧
      ∀ expression expression', Derives cs expression → Derives cs expression' → expression = expression' := by
  refine ⟨fun expression => scan?_eq_some_iff, fun money physical h => h.not_physical, ?_⟩
  intro expression expression' first second
  rw [← scan?_eq_some_iff] at first second
  exact Option.some.inj (first.symm.trans second)

end Metrology.Expression
