import Metrology.Proofs.Registry.RoundTrip

/-!
Amounts of money and their plain text. `standard_reparse_money`: the text is read back where the amount is
written in full and only divisors follow. A power of ten is refused, as is a space or a mark after the
amount.
-/

namespace Metrology
open Text Expression Outcome

variable {q : Quantity Float} {u v : Factor Float} {us : List (Factor Float)} {cs rest sign body power : List Char}
  {symbol : Char} {letter : Option Char} {tokens : List Token}

/-- Written without a power of ten: zero, and the ordinary magnitudes. -/
def WrittenInFull (x : Float) : Prop :=
  (Numeral.ofFloat x).power = none

/-! ### Scanning -/

namespace Expression

theorem scan?_of_currency (h : sign = [] ∨ sign = ['-']) (currency : isCurrencySymbol symbol = true) (rest : List Char) :
    scan? (sign ++ symbol :: rest) = scanMoney? (sign ++ symbol :: rest) := by
  obtain ⟨plus, minus, slash, digit, letter⟩ := isCurrencySymbol_spec currency
  have physical : scanPhysical? (sign ++ symbol :: rest) = none := by
    rw [Option.eq_none_iff_forall_ne_some]
    intro e scanned
    obtain ⟨amount, tokens, -, physical, -⟩ := scanPhysical?_sound scanned
    obtain ⟨c, head, other⟩ := physical.unsigned
    rw [head?_unsigned (.of_minus h) plus minus] at head
    obtain rfl : symbol = c := Option.some.inj head
    rcases other with other | other | other
    · simp [other] at digit
    · exact slash other
    · simp [other] at letter
  rw [scan?, physical, Option.or_none]

theorem IsPower.head (h : IsPower power) (nonempty : power ≠ []) :
    ∃ c cs, power = c :: cs ∧ c ∉ moneyLetters ∧ c.isDigit = false ∧ c ≠ '.' ∧ operator? c = Option.none := by
  cases h with
  | none => exact absurd rfl nonempty
  | some mark =>
    refine ⟨_, _, rfl, ?_⟩
    rcases mark with rfl | rfl <;> exact ⟨by decide, by decide, by decide, rfl⟩

end Expression

namespace Registry
open Quantity

/-! ### The currency -/

/-- A spelling of one character has no room for a prefix. -/
theorem standard_bare {reading : Reading Float}
    (read : reading? standard.units (String.singleton symbol) = some reading) :
    reading.pre = none ∧ reading.base.symbol.toList = [symbol] := by
  obtain ⟨base, pre⟩ := reading
  have spelled := congrArg String.toList (spelling_of_reading? read)
  rw [toList_spelling, String.toList_singleton] at spelled
  obtain ⟨member, accepted⟩ := mem_of_reading? read
  have legible := standard_legible base member
  cases pre with
  | none => exact ⟨rfl, spelled⟩
  | some p =>
    obtain ⟨c, cs, front⟩ := List.exists_cons_of_ne_nil (legible.named p (accepted p rfl))
    obtain ⟨d, ds, back⟩ := List.exists_cons_of_ne_nil legible.nonempty
    simp [front, back] at spelled

theorem standard_currency (resolved : standard.resolveCurrency symbol letter = .ok u) :
    u.base.symbol.toList = [symbol] ∧ u.exponent = 1 ∧ (u.prefixSymbol?.getD "").toList = letter.toList := by
  unfold resolveCurrency at resolved
  split at resolved
  · cases resolved
  · rename_i w found
    obtain ⟨⟨base, pre⟩, read, rfl⟩ := resolve_ok found
    rw [standard_indexed.getElem?_readings] at read
    obtain ⟨rfl, alone⟩ : pre = none ∧ base.symbol.toList = [symbol] := standard_bare read
    cases letter with
    | none =>
      obtain rfl := Except.ok.inj resolved
      exact ⟨alone, rfl, rfl⟩
    | some c =>
      dsimp only at resolved
      split at resolved
      · rename_i p chosen
        obtain rfl := Except.ok.inj resolved
        have name : p.symbol = String.singleton c := by simpa using List.find?_some chosen
        refine ⟨alone, rfl, ?_⟩
        show p.symbol.toList = _
        rw [name, String.toList_singleton]
        rfl
      · cases resolved

theorem wrap_plain (h : sign = [] ∨ sign = ['-']) (decimal : IsDecimal body) (rest symbol : List Char) :
    Layout.wrap symbol (sign ++ (body ++ rest)) = sign ++ (symbol ++ (body ++ rest)) := by
  obtain ⟨c, tail, rfl, digit⟩ := decimal.exists_cons
  have minus := ne_of_isDigit (d := '-') digit (by decide)
  rcases h with rfl | rfl
  · unfold Layout.wrap
    split
    · rename_i same
      exact absurd (List.cons.inj same).1 minus
    · rfl
  · rfl

theorem add_currency (symbols : u.base.symbol.toList = [symbol]) (currency : isCurrencySymbol symbol = true)
    (one : u.exponent = 1) (letters : (u.prefixSymbol?.getD "").toList = letter.toList)
    (h : sign = [] ∨ sign = ['-']) (decimal : IsDecimal body) :
    Layout.add .ascii ⟨sign ++ (body ++ power), [], false⟩ u =
      ⟨sign ++ symbol :: (body ++ power) ++ letter.toList, [], false⟩ := by
  have isCurrency : u.base.isCurrency = true := by
    rw [BaseUnit.isCurrency, symbols]
    exact currency
  have positive : ¬u.exponent.val < 0 := by
    rw [one]
    decide
  rw [Layout.add, if_neg positive, if_pos ⟨one, isCurrency⟩, symbols, wrap_plain h decimal, letters]
  rfl

/-! ### The text -/

/-- What is known of a text of money that was read. -/
structure IsWorth (symbol : Char) (letter : Option Char) (currency : Factor Float) (us : List (Factor Float)) : Prop where
  isSymbol : isCurrencySymbol symbol = true
  isLetter : ∀ c ∈ letter, c ∈ moneyLetters
  resolved : standard.resolveCurrency symbol letter = .ok currency
  readable : ∀ u ∈ us, u.Readable standard

theorem exists_worth {negative : Bool} {amount : List Char} {text : String}
    (derives : Derives (trim text.toList) (.money negative symbol amount letter tokens))
    (parsed : standard.parse text = .ok q) (exponents : ∀ u ∈ q.units, u.exponent.val ≠ -2147483648) :
    ∃ currency us, q.units = currency :: us ∧ IsWorth symbol letter currency us := by
  have scanned := scan?_eq_some_iff.mpr derives
  obtain ⟨isSymbol, listed, legible⟩ := derives.isMoney.parts
  rw [parse] at parsed
  simp only [scanned] at parsed
  obtain ⟨x, -, parsed⟩ := bind_ok parsed
  obtain ⟨currency, coined, parsed⟩ := bind_ok parsed
  obtain ⟨units, resolved, parsed⟩ := bind_ok parsed
  rw [pure_ok parsed, List.forall_mem_cons] at exponents
  refine ⟨currency, units, by rw [pure_ok parsed], isSymbol, listed, coined, ?_⟩
  intro u member
  obtain ⟨t, present, found⟩ := mem_of_mapM_ok resolved member
  exact readable_of_resolveToken standard_indexed (legible t present) found (exponents.2 u member)

variable {currency : Factor Float}

def worthText (sign body power : List Char) (symbol : Char) (letter : Option Char) : List Char :=
  sign ++ symbol :: (body ++ power) ++ letter.toList

theorem toList_ascii_money (worth : IsWorth symbol letter currency us) (units : q.units = currency :: us)
    (plain : (Numeral.ofFloat q.amount).plain = sign ++ (body ++ power)) (h : sign = [] ∨ sign = ['-'])
    (decimal : IsDecimal body) :
    q.ascii.toList = worthText sign body power symbol letter ++
      (us.foldl (Layout.add .ascii) ⟨worthText sign body power symbol letter, [], false⟩).units := by
  obtain ⟨symbols, one, letters⟩ := standard_currency worth.resolved
  have frame := Layout.foldl_frame (l := ⟨worthText sign body power symbol letter, [], false⟩) worth.readable (by simp)
  rw [toList_ascii, units, List.foldl_cons, plain, add_currency symbols worth.isSymbol one letters h decimal]
  exact congrArg (· ++ _) frame.1

theorem isBlank_of_isCurrencySymbol {c : Char} (h : isCurrencySymbol c = true) : isBlank c = false := by
  simp [isCurrencySymbol, currencySymbols] at h
  rcases h with rfl | rfl | rfl | rfl | rfl | rfl | rfl | rfl <;> simp [isBlank, blankRuns]

theorem trim_ascii_money (worth : IsWorth symbol letter currency us) (units : q.units = currency :: us)
    (plain : (Numeral.ofFloat q.amount).plain = sign ++ (body ++ power)) (h : sign = [] ∨ sign = ['-'])
    (decimal : IsDecimal body) (float : IsFloat (Numeral.ofFloat q.amount).plain) :
    trim q.ascii.toList = q.ascii.toList := by
  have number := fun c member => isBlank_of_isNumberChar (float.isNumberChar c member)
  have solid : ∀ c ∈ worthText sign body power symbol letter, isBlank c = false := by
    rw [plain, List.forall_mem_append] at number
    rw [worthText, List.forall_mem_append, List.forall_mem_append, List.forall_mem_cons]
    refine ⟨⟨number.1, isBlank_of_isCurrencySymbol worth.isSymbol, number.2⟩, ?_⟩
    intro c member
    exact isBlank_of_isSymbolChar (isSymbolChar_moneyLetters c (worth.isLetter c (by simpa using member)))
  have frame := Layout.foldl_frame (l := ⟨worthText sign body power symbol letter, [], false⟩) worth.readable (by simp)
  rw [toList_ascii_money worth units plain h decimal]
  exact trim_append (by simp [worthText]) solid frame.2

/-! ### Texts that are read back -/

theorem evaluate_money {r : Registry Float} {amount : List Char} {negative : Bool} {y : Float}
    (read : Decimal.readFloat? amount = some y) (coined : r.resolveCurrency symbol letter = .ok currency)
    (resolved : tokens.mapM r.resolveToken = .ok us) :
    r.evaluate (.money negative symbol amount letter tokens) = .ok ⟨if negative then -y else y, currency :: us⟩ := by
  have number : (readAmount amount : Except Error Float) = .ok y := by
    rw [readAmount, read]
    rfl
  exact bind_ok_iff.mpr ⟨y, number, bind_ok_iff.mpr ⟨currency, coined, bind_ok_iff.mpr ⟨us, resolved, rfl⟩⟩⟩

theorem standard_parse_money_divisors (finite : q.amount.isFinite = true) (units : q.units = currency :: us)
    (worth : IsWorth symbol letter currency us) (full : WrittenInFull q.amount)
    (divisors : ∀ u ∈ us, u.exponent.val < 0) : standard.parse q.ascii = .ok q := by
  obtain ⟨sign, body, power, y, plain, h, decimal, -, ordinary, -, read, signed⟩ := Decimal.exists_parts finite
  have trimmed := trim_ascii_money worth units plain h decimal (Decimal.isFloat_plain finite)
  have text := toList_ascii_money worth units plain h decimal
  obtain ⟨ts, tail, resolved⟩ := Factor.exists_tail worth.readable
  rw [Layout.foldl_add worth.readable (.inr divisors)] at text
  rw [ordinary.mp full] at text read
  rw [List.append_nil] at read
  have derives := IsMoney.intro (.of_minus h) worth.isSymbol decimal worth.isLetter tail
  have scanned : scan? q.ascii.toList = some (.money (sign = ['-']) symbol body letter ts) := by
    rw [← scan?_eq_some_iff.mpr (.money derives), text, worthText]
    simp
  rw [parse_of_scan trimmed scanned, evaluate_money read worth.resolved resolved]
  simp only [decide_eq_true_eq, signed, ← units]

/-! ### Texts that are refused -/

/-- What follows the amount and its letter must be an operator. -/
theorem parse_money_leftover {text : String} {c : Char} {letter : Option Char} (trimmed : trim text.toList = text.toList)
    (written : text.toList = sign ++ symbol :: (body ++ (letter.toList ++ c :: rest))) (h : sign = [] ∨ sign = ['-'])
    (currency : isCurrencySymbol symbol = true) (decimal : IsDecimal body) (listed : ∀ c ∈ letter, c ∈ moneyLetters)
    (leftover : c ∉ moneyLetters ∧ c.isDigit = false ∧ c ≠ '.' ∧ operator? c = none) :
    ∃ e, standard.parse text = .error e := by
  obtain ⟨other, digit, point, operator⟩ := leftover
  have scanned : scan? text.toList = none := by
    rw [written, scan?_of_currency h currency,
      scanMoney?_exact (.of_minus h) currency decimal listed (by simpa using ⟨other, digit, point⟩),
      scanTail?_of_not_operator operator]
    rfl
  rw [← trimmed] at scanned
  exact ⟨_, parse_unscanned scanned⟩

theorem standard_parse_money_refused (finite : q.amount.isFinite = true) (units : q.units = currency :: us)
    (worth : IsWorth symbol letter currency us)
    (refused : ¬WrittenInFull q.amount ∨ ∃ u ∈ us.head?, 0 ≤ u.exponent.val) :
    ∃ e, standard.parse q.ascii = .error e := by
  obtain ⟨sign, body, power, y, plain, h, decimal, isPower, ordinary, -⟩ := Decimal.exists_parts finite
  have trimmed := trim_ascii_money worth units plain h decimal (Decimal.isFloat_plain finite)
  have text := toList_ascii_money worth units plain h decimal
  by_cases full : power = []
  · obtain ⟨v, head, nonneg⟩ := refused.resolve_left fun scientific => scientific (ordinary.mpr full)
    obtain ⟨back, rfl⟩ := List.head?_eq_some_iff.mp head
    have readable := List.forall_mem_cons.mp worth.readable
    rw [List.foldl_cons, Layout.add_product readable.1 nonneg, Layout.foldl_add readable.2 (.inl rfl)] at text
    have joint := standard_joint (l := ⟨worthText sign body power symbol letter, [], false⟩) readable.1
      (by simp [worthText]) rfl
    generalize Layout.joint _ _ _ = gap at text joint
    have written : q.ascii.toList =
        sign ++ symbol :: (body ++ (letter.toList ++ (gap ++ (v.render .ascii ++ back.flatMap Factor.following)))) := by
      rw [text, worthText, full]
      simp
    rcases joint with rfl | ⟨rfl, c, mark, spelling⟩
    · exact parse_money_leftover trimmed written h worth.isSymbol decimal worth.isLetter
        ⟨by decide, by decide, by decide, rfl⟩
    · obtain ⟨-, operator, letter, spare⟩ := angleMarks_spec c mark
      have first : v.render .ascii = c :: _ := congrArg (· ++ _) spelling
      rw [first] at written
      refine parse_money_leftover trimmed written h worth.isSymbol decimal worth.isLetter ?_
      exact ⟨spare, isDigit_of_isSymbolChar letter, ne_of_isSymbolChar letter (by decide), operator⟩
  · obtain ⟨c, cs, rfl, leftover⟩ := isPower.head full
    have written : q.ascii.toList = sign ++ symbol :: (body ++ ((none : Option Char).toList ++ c :: (cs ++ (letter.toList ++
        (us.foldl (Layout.add .ascii) ⟨worthText sign body (c :: cs) symbol letter, [], false⟩).units)))) := by
      rw [text]
      simp [worthText]
    exact parse_money_leftover trimmed written h worth.isSymbol decimal nofun leftover

/-! ### Texts of money -/

/-- What is read back, and what is refused; a factor that comes after divisors is left out. -/
theorem standard_reparse_money {negative : Bool} {amount : List Char} {text : String}
    (derives : Derives (trim text.toList) (.money negative symbol amount letter tokens))
    (parsed : standard.parse text = .ok q) (finite : q.amount.isFinite = true)
    (exponents : ∀ u ∈ q.units, u.exponent.val ≠ -2147483648) :
    (WrittenInFull q.amount → (∀ u ∈ q.units.tail, u.exponent.val < 0) → standard.parse q.ascii = .ok q) ∧
      (¬WrittenInFull q.amount ∨ (∃ u ∈ q.units.tail.head?, 0 ≤ u.exponent.val) →
        ∃ e, standard.parse q.ascii = .error e) := by
  obtain ⟨currency, us, units, worth⟩ := exists_worth derives parsed exponents
  rw [units, List.tail_cons]
  exact ⟨standard_parse_money_divisors finite units worth, standard_parse_money_refused finite units worth⟩

namespace Builtin

def dollar : BaseUnit Float := { irreducible "$" "dollar" ofMoney with order := 71 }

def hour : BaseUnit Float := { linear "h" "hour" 3600 "s" with order := 31 }

def mega : Prefix Float := ⟨"M", 1e6⟩

theorem dollar_mem : dollar ∈ standard.units := by
  rw [standard_units]
  exact mem_numbered (i := 70) rfl

theorem hour_mem : hour ∈ standard.units := by
  rw [standard_units]
  exact mem_numbered (i := 30) rfl

theorem resolve_dollar : standard.resolve (String.singleton '$') 1 = .ok ⟨dollar, none, 1⟩ := by
  have offers : Offers standard.units ⟨dollar, none⟩ := ⟨dollar_mem, nofun⟩
  rw [resolve, show String.singleton '$' = Reading.spelling ⟨dollar, none⟩ from rfl, standard_reading offers]

theorem coin_dollar : standard.resolveCurrency '$' none = .ok ⟨dollar, none, 1⟩ := by
  rw [resolveCurrency, resolve_dollar]

theorem hour_other : hour.isCurrency = false := by rfl

theorem hour_readable {e : Exponent} (some : e.val ≠ -2147483648) : (⟨hour, none, e⟩ : Factor Float).Readable standard :=
  standard_readable hour_mem (by simp) hour_other some

end Builtin

/-- The quantity of `-$3.5M/h`. -/
def hourlyLoss : Quantity Float :=
  ⟨-3.5, [⟨Builtin.dollar, some Builtin.mega, 1⟩, ⟨Builtin.hour, none, .reciprocal⟩]⟩

/-- The quantity of `$1000000000000000`. -/
def fortune : Quantity Float :=
  ⟨1e15, [⟨Builtin.dollar, none, 1⟩]⟩

/-- The quantity of `$20*h`. -/
def dollarHours : Quantity Float :=
  ⟨20, [⟨Builtin.dollar, none, 1⟩, ⟨Builtin.hour, none, 1⟩]⟩

theorem hourlyLoss_scanned :
    (scan? "-$3.5M/h".toList = some (.money true '$' "3.5".toList (some 'M') [⟨.per, ['h'], none⟩]) ∧
        Decimal.readFloat? "3.5".toList = some 3.5) ∧ (Numeral.ofFloat hourlyLoss.amount).power = none := by
  decide +kernel

theorem fortune_scanned :
    (scan? "$1000000000000000".toList = some (.money false '$' "1000000000000000".toList none []) ∧
        Decimal.readFloat? "1000000000000000".toList = some 1e15) ∧
      (Numeral.ofFloat fortune.amount).power = some 15 ∧ fortune.ascii = "$1e15" ∧
      scan? (trim "$1e15".toList) = none := by
  decide +kernel

theorem dollarHours_scanned :
    (scan? "$20*h".toList = some (.money false '$' "20".toList none [⟨.times, ['h'], none⟩]) ∧
        Decimal.readFloat? "20".toList = some 20) ∧ dollarHours.ascii = "$20 h" ∧ scan? (trim "$20 h".toList) = none := by
  decide +kernel

theorem parse_hourlyLoss : standard.parse "-$3.5M/h" = .ok hourlyLoss := by
  have hour := Builtin.hour_readable (e := .reciprocal) (by decide)
  have coined : standard.resolveCurrency '$' (some 'M') = .ok ⟨Builtin.dollar, some Builtin.mega, 1⟩ := by
    rw [resolveCurrency, Builtin.resolve_dollar]
    rfl
  have resolved : [⟨.per, ['h'], none⟩].mapM standard.resolveToken = .ok hourlyLoss.units.tail :=
    mapM_of_forall₂ (.cons (hour.resolveToken_per (e := 1) rfl rfl) .nil)
  obtain ⟨scanned, read⟩ := hourlyLoss_scanned.1
  rw [parse_of_scan rfl scanned, evaluate_money read coined resolved]
  rfl

theorem parse_fortune : standard.parse "$1000000000000000" = .ok fortune := by
  have resolved : [].mapM standard.resolveToken = .ok fortune.units.tail := rfl
  obtain ⟨scanned, read⟩ := fortune_scanned.1
  rw [parse_of_scan rfl scanned, evaluate_money read Builtin.coin_dollar resolved]
  rfl

theorem parse_dollarHours : standard.parse "$20*h" = .ok dollarHours := by
  have hour := Builtin.hour_readable (e := 1) (by decide)
  have resolved : [⟨.times, ['h'], none⟩].mapM standard.resolveToken = .ok dollarHours.units.tail :=
    mapM_of_forall₂ (.cons (hour.resolveToken rfl) .nil)
  obtain ⟨scanned, read⟩ := dollarHours_scanned.1
  rw [parse_of_scan rfl scanned, evaluate_money read Builtin.coin_dollar resolved]
  rfl

theorem hourlyLoss_exponents : ∀ u ∈ hourlyLoss.units, u.exponent.val ≠ -2147483648 := by
  rw [hourlyLoss, List.forall_mem_cons, List.forall_mem_singleton]
  exact ⟨by decide, by decide⟩

theorem fortune_exponents : ∀ u ∈ fortune.units, u.exponent.val ≠ -2147483648 := by
  rw [fortune, List.forall_mem_singleton]
  decide

theorem dollarHours_exponents : ∀ u ∈ dollarHours.units, u.exponent.val ≠ -2147483648 := by
  rw [dollarHours, List.forall_mem_cons, List.forall_mem_singleton]
  exact ⟨by decide, by decide⟩

theorem fortune_scientific : ¬WrittenInFull fortune.amount := by
  rw [WrittenInFull, fortune_scanned.2.1]
  exact Option.some_ne_none 15

theorem standard_reparse_money_samples :
    (standard.parse "-$3.5M/h" = .ok hourlyLoss ∧ standard.parse hourlyLoss.ascii = .ok hourlyLoss) ∧
      (standard.parse "$1000000000000000" = .ok fortune ∧ ∃ e, standard.parse fortune.ascii = .error e) ∧
      standard.parse "$20*h" = .ok dollarHours ∧ ∃ e, standard.parse dollarHours.ascii = .error e := by
  have loss : Derives (trim "-$3.5M/h".toList) _ := scan?_eq_some_iff.mp hourlyLoss_scanned.1.1
  have wealth : Derives (trim "$1000000000000000".toList) _ := scan?_eq_some_iff.mp fortune_scanned.1.1
  have hours : Derives (trim "$20*h".toList) _ := scan?_eq_some_iff.mp dollarHours_scanned.1.1
  refine ⟨⟨parse_hourlyLoss, ?_⟩, ⟨parse_fortune, ?_⟩, parse_dollarHours, ?_⟩
  · refine (standard_reparse_money loss parse_hourlyLoss rfl hourlyLoss_exponents).1 hourlyLoss_scanned.2 ?_
    simp [hourlyLoss]
  · exact (standard_reparse_money wealth parse_fortune rfl fortune_exponents).2 (.inl fortune_scientific)
  · exact (standard_reparse_money hours parse_dollarHours rfl dollarHours_exponents).2
      (.inr ⟨_, rfl, by decide⟩)

/-- An amount of money has no power of ten, and no space stands after it. -/
theorem fortune_dollarHours_not_reparsed :
    (Derives (trim "$1000000000000000".toList) (.money false '$' "1000000000000000".toList none []) ∧
        standard.parse "$1000000000000000" = .ok fortune ∧ fortune.amount.isFinite = true ∧
        (∀ u ∈ fortune.units, u.exponent.val ≠ -2147483648) ∧ fortune.ascii = "$1e15" ∧
        ¬∃ q, standard.parse fortune.ascii = .ok q) ∧
      Derives (trim "$20*h".toList) (.money false '$' "20".toList none [⟨.times, ['h'], none⟩]) ∧
      standard.parse "$20*h" = .ok dollarHours ∧ dollarHours.amount.isFinite = true ∧
      (∀ u ∈ dollarHours.units, u.exponent.val ≠ -2147483648) ∧ dollarHours.ascii = "$20 h" ∧
      ¬∃ q, standard.parse dollarHours.ascii = .ok q := by
  obtain ⟨⟨wealth, -⟩, -, large, power⟩ := fortune_scanned
  obtain ⟨⟨hours, -⟩, spaced, space⟩ := dollarHours_scanned
  refine ⟨⟨scan?_eq_some_iff.mp wealth, parse_fortune, rfl, fortune_exponents, large, ?_⟩,
    scan?_eq_some_iff.mp hours, parse_dollarHours, rfl, dollarHours_exponents, spaced, ?_⟩
  · rw [large, parse_unscanned power]
    rintro ⟨q, ⟨⟩⟩
  · rw [spaced, parse_unscanned space]
    rintro ⟨q, ⟨⟩⟩

end Registry

end Metrology
