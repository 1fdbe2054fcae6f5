import Metrology.Decimal.Reader
import Metrology.Proofs.Decimal.Shortest
import Metrology.Proofs.Expression.Grammar

/-!
Numerals are read back from their plain text. `Spells` says what the digits of a numeral are worth to the
reader, whatever power of ten follows them. Main statement: `readFloat?_plain`, for every finite double.
-/

namespace Metrology.Decimal
open Text Expression

variable {body cs ds fs rest : List Char} {d : Decimal} {x : Float} {n k : Nat} {e power : Int} {negative : Bool}

/-! ### The reader -/

theorem readMagnitude?_whole (whole : IsDigits ds) (stop : ∀ c ∈ rest.head?, c.isDigit = false ∧ c ≠ '.')
    (negative : Bool) :
    readMagnitude? negative (ds ++ rest) =
      (readPower? rest).map fun power => ofParts negative (Nat.ofDigitChars 10 ds 0) power := by
  have taken := takeWhile_append_stop whole.isDigit fun c head => (stop c head).1
  have left := dropWhile_append_stop whole.isDigit fun c head => (stop c head).1
  unfold readMagnitude?
  rw [taken, left]
  cases rest with
  | nil => simp [whole.ne_nil]
  | cons c rest =>
    have point := (stop c rfl).2
    simp [whole.ne_nil, point]

theorem readMagnitude?_point (whole : IsDigits ds) (fraction : IsDigits fs)
    (stop : ∀ c ∈ rest.head?, c.isDigit = false) (negative : Bool) :
    readMagnitude? negative (ds ++ '.' :: (fs ++ rest)) =
      (readPower? rest).map fun power => ofParts negative (Nat.ofDigitChars 10 (ds ++ fs) 0) (power - fs.length) := by
  have point : ∀ c ∈ ('.' :: (fs ++ rest)).head?, c.isDigit = false := by simp
  have taken := takeWhile_append_stop whole.isDigit point
  have left := dropWhile_append_stop whole.isDigit point
  have taken' := takeWhile_append_stop fraction.isDigit stop
  have left' := dropWhile_append_stop fraction.isDigit stop
  unfold readMagnitude?
  rw [taken, left]
  simp [taken', left', whole.ne_nil]

/-! ### What digits are worth -/

/-- `body` is a decimal that the reader takes for `n · 10 ^ e`, and for more or less before a power. -/
structure Spells (body : List Char) (n : Nat) (e : Int) : Prop where
  decimal : IsDecimal body
  read : ∀ negative rest power, (∀ c ∈ rest.head?, c.isDigit = false ∧ c ≠ '.') → readPower? rest = some power →
    readMagnitude? negative (body ++ rest) = some (ofParts negative n (power + e))

theorem spells_whole (whole : IsDigits ds) : Spells ds (Nat.ofDigitChars 10 ds 0) 0 := by
  refine ⟨?_, ?_⟩
  · rw [← List.append_nil ds]
    exact .intro whole .none
  · intro negative rest power stop read
    rw [readMagnitude?_whole whole stop, read, Option.map_some, add_zero]

theorem spells_point (whole : IsDigits ds) (fraction : IsDigits fs) :
    Spells (ds ++ '.' :: fs) (Nat.ofDigitChars 10 (ds ++ fs) 0) (-fs.length) := by
  refine ⟨.intro whole (.some fraction), ?_⟩
  intro negative rest power stop read
  rw [List.append_assoc, List.cons_append, readMagnitude?_point whole fraction fun c head => (stop c head).1, read]
  rfl

theorem isDigits_digits (d : Decimal) : IsDigits d.digits :=
  isDigits_toDigits d.significand

theorem ofDigitChars_digits (d : Decimal) : Nat.ofDigitChars 10 d.digits 0 = d.significand :=
  Nat.ofDigitChars_toDigits (by decide) (by decide)

theorem isDigits_replicate (h : 0 < k) : IsDigits (List.replicate k '0') := by
  refine ⟨by simpa using h.ne', ?_⟩
  intro c member
  rw [(List.mem_replicate.mp member).2]
  rfl

theorem spells_split (d : Decimal) {i : Nat} (first : 0 < i) (last : i < d.digits.length) :
    Spells (d.digits.take i ++ '.' :: d.digits.drop i) d.significand (i - d.digits.length) := by
  have digits := d.isDigits_digits
  have whole : IsDigits (d.digits.take i) := by
    refine ⟨?_, fun c member => digits.isDigit c (List.mem_of_mem_take member)⟩
    rw [← List.length_pos_iff, List.length_take]
    omega
  have fraction : IsDigits (d.digits.drop i) := by
    refine ⟨?_, fun c member => digits.isDigit c (List.mem_of_mem_drop member)⟩
    rw [← List.length_pos_iff, List.length_drop]
    omega
  have spelled := spells_point whole fraction
  have length : (-(d.digits.drop i).length : Int) = i - d.digits.length := by
    rw [List.length_drop]
    omega
  rwa [List.take_append_drop, ofDigitChars_digits, length] at spelled

/-! ### The two forms of a decimal -/

theorem exists_positional (d : Decimal) :
    ∃ (body : List Char) (k : Nat), d.positional = d.signText ++ body ∧ Spells body (d.significand * 10 ^ k) (d.exponent - k) := by
  unfold positional
  dsimp only
  split
  · -- Zeros after the digits.
    rename_i whole
    obtain ⟨k, exponent⟩ : ∃ k : Nat, d.exponent = k := ⟨d.exponent.toNat, by omega⟩
    have zeros : ∀ c ∈ List.replicate k '0', c.isDigit = true := by simp
    have spelled := spells_whole (d.isDigits_digits.append zeros)
    rw [Nat.ofDigitChars_append, ofDigitChars_digits, Nat.ofDigitChars_replicate_zero, Nat.mul_comm] at spelled
    refine ⟨_, k, rfl, ?_⟩
    rwa [exponent, Int.toNat_natCast, sub_self]
  · rename_i below
    obtain ⟨places, exponent⟩ : ∃ places : Nat, d.exponent = -places := ⟨(-d.exponent).toNat, by omega⟩
    have same : (-d.exponent).toNat = places := by omega
    rw [same]
    split
    · -- A point among the digits.
      rename_i inside
      have spelled := spells_split d (i := d.digits.length - places) (by omega) (by omega)
      refine ⟨_, 0, rfl, ?_⟩
      have point : ((d.digits.length - places : Nat) : Int) - d.digits.length = d.exponent - (0 : Nat) := by omega
      rwa [point, ← Nat.mul_one d.significand] at spelled
    · -- Zeros before the digits.
      rename_i outside
      have zeros : ∀ c ∈ List.replicate (places - d.digits.length) '0', c.isDigit = true := by simp
      have fraction : IsDigits (List.replicate (places - d.digits.length) '0' ++ d.digits) := by
        refine ⟨by simp [d.isDigits_digits.ne_nil], ?_⟩
        rw [List.forall_mem_append]
        exact ⟨zeros, d.isDigits_digits.isDigit⟩
      have spelled := spells_point (isDigits_replicate Nat.one_pos) fraction
      have value : Nat.ofDigitChars 10 (List.replicate 1 '0' ++ (List.replicate (places - d.digits.length) '0' ++ d.digits)) 0 =
          d.significand := by
        rw [← List.append_assoc, List.replicate_append_replicate, Nat.ofDigitChars_append, Nat.ofDigitChars_replicate_zero,
          Nat.mul_zero, ofDigitChars_digits]
      have length : (-(List.replicate (places - d.digits.length) '0' ++ d.digits).length : Int) = d.exponent - (0 : Nat) := by
        rw [List.length_append, List.length_replicate]
        omega
      refine ⟨_, 0, rfl, ?_⟩
      rwa [value, length, ← Nat.mul_one d.significand] at spelled

theorem exists_mantissa (d : Decimal) :
    ∃ body, d.mantissa = d.signText ++ body ∧ Spells body d.significand (1 - d.digits.length) := by
  unfold mantissa
  have digits := spells_whole d.isDigits_digits
  have split := spells_split d (i := 1) Nat.one_pos
  rw [ofDigitChars_digits] at digits
  refine ⟨_, rfl, ?_⟩
  cases run : d.digits with
  | nil => exact absurd run d.isDigits_digits.ne_nil
  | cons c cs =>
    rw [run] at digits split
    cases cs with
    | nil => exact digits
    | cons c' cs => exact split (by simp)

/-! ### Reading back -/

theorem readPower?_plain (power : Int) : readPower? ('e' :: Text.plain power) = some power :=
  readInt?_plain power

theorem isPower_plain (power : Int) : IsPower ('e' :: Text.plain power) := by
  have digits := isDigits_toDigits power.natAbs
  rcases Int.lt_or_le power 0 with negative | nonneg
  · rw [plain_of_neg negative]
    exact .some (.inl rfl) .minus digits
  · rw [plain_of_nonneg nonneg]
    exact .some (.inl rfl) .none digits

theorem Stripped.withSign (h : d.Stripped) (negative : Bool) : ofParts negative d.significand d.exponent = { d with negative } :=
  ofParts_of_stripped (d := { d with negative }) ⟨h.zero, h.last⟩

/-- The digits of a numeral and its power of ten, and what they are read as. -/
theorem exists_plain (stripped : d.Stripped) :
    ∃ body power, (Numeral.ofDecimal d).plain = d.signText ++ (body ++ power) ∧ IsDecimal body ∧ IsPower power ∧
      ((Numeral.ofDecimal d).power = none ↔ power = []) ∧
      ∀ negative, readMagnitude? negative (body ++ power) = some { d with negative } := by
  unfold Numeral.ofDecimal
  split
  · obtain ⟨body, k, text, spelled⟩ := exists_positional d
    refine ⟨body, [], ?_, spelled.decimal, .none, by simp, ?_⟩
    · rw [List.append_nil]
      exact text
    · intro negative
      rw [spelled.read negative [] 0 nofun rfl, zero_add, ofParts_shift, stripped.withSign]
  · obtain ⟨body, text, spelled⟩ := exists_mantissa d
    refine ⟨body, 'e' :: Text.plain d.magnitude, ?_, spelled.decimal, isPower_plain _, by simp, ?_⟩
    · rw [← List.append_assoc, ← text]
      rfl
    · intro negative
      have exponent : d.magnitude + (1 - d.digits.length) = d.exponent := by
        unfold magnitude
        omega
      rw [spelled.read negative _ d.magnitude (by simp) (readPower?_plain _), exponent, stripped.withSign]

theorem readFloat?_of_magnitude (digits : IsDecimal body) (read : readMagnitude? negative (body ++ rest) = some d) :
    readFloat? ((if negative then ['-'] else []) ++ (body ++ rest)) = some d.toFloat := by
  obtain ⟨c, tail, rfl, digit⟩ := digits.exists_cons
  have signed : splitSign ((if negative then ['-'] else []) ++ (c :: tail ++ rest)) = (negative, c :: tail ++ rest) := by
    cases negative with
    | true => rfl
    | false =>
      have minus := ne_of_isDigit (d := '-') digit (by decide)
      have plus := ne_of_isDigit (d := '+') digit (by decide)
      simp [splitSign, minus, plus]
  rw [readFloat?, ofChars?, signed]
  simp only [read]

/-! ### The floats of the grammar -/

theorem exists_spells (h : IsDecimal body) : ∃ n e, Spells body n e := by
  obtain ⟨whole, fraction⟩ := h
  cases fraction with
  | none =>
    rw [List.append_nil]
    exact ⟨_, _, spells_whole whole⟩
  | some digits => exact ⟨_, _, spells_point whole digits⟩

theorem exists_readInt? {sign : List Char} (h : IsSign sign) (digits : IsDigits ds) :
    ∃ n, readInt? (sign ++ ds) = some n := by
  cases h with
  | none => exact ⟨_, readInt?_digits digits⟩
  | plus => exact ⟨_, readInt?_plus digits⟩
  | minus => exact ⟨_, readInt?_minus digits⟩

theorem exists_readPower? {cs : List Char} (h : IsPower cs) :
    (∃ power, readPower? cs = some power) ∧ ∀ c ∈ cs.head?, c.isDigit = false ∧ c ≠ '.' := by
  cases h with
  | none => exact ⟨⟨0, rfl⟩, nofun⟩
  | some mark sign digits =>
    have power := exists_readInt? sign digits
    rcases mark with rfl | rfl
    · exact ⟨power, by simp⟩
    · exact ⟨power, by simp⟩

/-- The reader takes every float of the grammar. -/
theorem exists_readFloat? (h : IsFloat cs) : ∃ x, readFloat? cs = some x := by
  obtain ⟨sign, decimal, isPower⟩ := h
  obtain ⟨n, e, spelled⟩ := exists_spells decimal
  obtain ⟨⟨power, read⟩, stop⟩ := exists_readPower? isPower
  rw [List.append_assoc]
  cases sign with
  | none => exact ⟨_, readFloat?_of_magnitude decimal (spelled.read false _ power stop read)⟩
  | minus => exact ⟨_, readFloat?_of_magnitude decimal (spelled.read true _ power stop read)⟩
  | plus =>
    have taken := spelled.read false _ power stop read
    exact ⟨(ofParts false n (power + e)).toFloat, by simp only [readFloat?, ofChars?, splitSign, List.singleton_append, taken]⟩

/-! ### The text of a double -/

/-- The plain text of a finite double is a sign, digits and perhaps a power of ten. It reads back as the
double, and without its sign as the magnitude. -/
theorem exists_parts (finite : x.isFinite = true) :
    ∃ sign body power y, (Numeral.ofFloat x).plain = sign ++ (body ++ power) ∧ (sign = [] ∨ sign = ['-']) ∧ IsDecimal body ∧
      IsPower power ∧ ((Numeral.ofFloat x).power = none ↔ power = []) ∧
      readFloat? (sign ++ (body ++ power)) = some x ∧
      readFloat? (body ++ power) = some y ∧ (if sign = ['-'] then -y else y) = x := by
  obtain ⟨d, shortest, back, stripped⟩ := ofFloat?_reads_back .up finite
  obtain ⟨body, power, text, decimal, isPower, ordinary, read⟩ := exists_plain stripped
  have numeral : Numeral.ofFloat x = Numeral.ofDecimal d := by rw [Numeral.ofFloat, shortest]
  have magnitude := readFloat?_of_magnitude decimal (read false)
  refine ⟨d.signText, body, power, _, numeral ▸ text, ?_, decimal, isPower, numeral ▸ ordinary, ?_, magnitude, ?_⟩
  · unfold signText
    split
    · exact .inr rfl
    · exact .inl rfl
  · rw [← back]
    exact readFloat?_of_magnitude decimal (read d.negative)
  · rw [← back, signText]
    cases sign : d.negative <;> simp [toFloat, sign]

theorem isFloat_plain (finite : x.isFinite = true) : IsFloat (Numeral.ofFloat x).plain := by
  obtain ⟨sign, body, power, y, text, isSign, decimal, isPower, -⟩ := exists_parts finite
  rw [text, ← List.append_assoc]
  exact .intro (.of_minus isSign) decimal isPower

theorem readFloat?_plain (finite : x.isFinite = true) : readFloat? (Numeral.ofFloat x).plain = some x := by
  obtain ⟨sign, body, power, y, text, -, -, -, -, read, -⟩ := exists_parts finite
  rw [text, read]

end Metrology.Decimal
