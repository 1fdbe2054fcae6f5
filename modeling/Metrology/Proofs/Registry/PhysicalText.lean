import Metrology.Proofs.Decimal.Numeral
import Metrology.Proofs.Quantity.Rendering
import Metrology.Proofs.Quantity.Tidy
import Metrology.Proofs.Registry.Spelling

/-!
Physical quantities and their plain text. `parse_ascii`: a quantity of readable factors is read back from
its text as it is, in whatever order the factors stand, unless divisors come before the first other factor.
Then the text is refused (`parse_ascii_stranded`), for nothing that joins two units is written between these.
-/

namespace Metrology
open Text Expression Outcome

variable {q q' : Quantity Float} {u v w : Factor Float} {us : List (Factor Float)} {a cs rest : List Char} {x : Float}

namespace Quantity

/-- Divisors stand at the front, and a factor that is none comes later. -/
def Stranded (us : List (Factor Float)) : Prop :=
  (∃ u ∈ us.head?, u.exponent.val < 0) ∧ ∃ u ∈ us, 0 ≤ u.exponent.val

theorem Stranded.split (h : Stranded us) :
    ∃ front w v back, us = front ++ w :: v :: back ∧ (∀ u ∈ front, u.exponent.val < 0) ∧ w.exponent.val < 0 ∧
      0 ≤ v.exponent.val := by
  induction us with
  | nil =>
    obtain ⟨⟨u, head, -⟩, -⟩ := h
    cases head
  | cons u us ih =>
    obtain ⟨⟨u', head, negative⟩, y, member, nonneg⟩ := h
    obtain rfl : u = u' := Option.some.inj head
    have later : y ∈ us := by
      rcases List.mem_cons.mp member with rfl | later
      · omega
      · exact later
    cases us with
    | nil => cases later
    | cons v vs =>
      rcases Int.lt_or_le v.exponent.val 0 with negative' | nonneg'
      · obtain ⟨front, w, v', back, same, divisors, rest⟩ := ih ⟨⟨v, rfl, negative'⟩, y, later, nonneg⟩
        refine ⟨u :: front, w, v', back, congrArg (u :: ·) same, ?_, rest⟩
        rw [List.forall_mem_cons]
        exact ⟨negative, divisors⟩
      · exact ⟨[], u, v, vs, rfl, by simp, negative, nonneg'⟩

/-! ### The parts of the text -/

theorem toList_ascii (q : Quantity Float) :
    q.ascii.toList = (q.units.foldl (Layout.add .ascii) ⟨(Numeral.ofFloat q.amount).plain, [], false⟩).amount ++
      (q.units.foldl (Layout.add .ascii) ⟨(Numeral.ofFloat q.amount).plain, [], false⟩).units :=
  String.toList_ofList

theorem trim_ascii {r : Registry Float} (finite : q.amount.isFinite = true) (readable : ∀ u ∈ q.units, u.Readable r) :
    trim q.ascii.toList = q.ascii.toList := by
  have float := Decimal.isFloat_plain finite
  have solid : ∀ c ∈ (Numeral.ofFloat q.amount).plain, isBlank c = false :=
    fun c member => isBlank_of_isNumberChar (float.isNumberChar c member)
  obtain ⟨amount, ends⟩ := Layout.foldl_frame (l := ⟨(Numeral.ofFloat q.amount).plain, [], false⟩) readable (by simp)
  rw [toList_ascii, amount]
  exact trim_append float.ne_nil solid ends

theorem evaluate_physical {r : Registry Float} {ts : List Token} (read : Decimal.readFloat? a = some x)
    (resolved : ts.mapM r.resolveToken = .ok us) : r.evaluate (.physical (some a) ts) = .ok ⟨x, us⟩ := by
  have amount : (Registry.readAmount a : Except Error Float) = .ok x := by
    rw [Registry.readAmount, read]
    rfl
  exact bind_ok_iff.mpr ⟨x, amount, bind_ok_iff.mpr ⟨us, resolved, rfl⟩⟩

theorem parse_of_scan {r : Registry Float} {text : String} {e : Expression} (trimmed : trim text.toList = text.toList)
    (scanned : scan? text.toList = some e) : r.parse text = r.evaluate e := by
  rw [Registry.parse, trimmed]
  simp only [scanned]

theorem parse_unscanned {r : Registry Float} {text : String} (unscanned : scan? (trim text.toList) = none) :
    r.parse text = .error (.malformedQuantity (String.ofList (trim text.toList))) := by
  rw [Registry.parse]
  simp only [unscanned]

end Quantity

namespace Registry
open Quantity

/-! ### Texts that are read back -/

theorem angleMarks_spec :
    ∀ c ∈ angleMarks, isNumberChar c = false ∧ operator? c = none ∧ isSymbolChar c = true ∧ c ∉ moneyLetters := by
  intro c listed
  simp [angleMarks] at listed
  rcases listed with rfl | rfl | rfl <;> simp [isNumberChar, operator?, isSymbolChar, moneyLetters]

theorem parse_ascii_divisors {r : Registry Float} (finite : q.amount.isFinite = true) (some : q.units ≠ [])
    (readable : ∀ u ∈ q.units, u.Readable r) (divisors : ∀ u ∈ q.units, u.exponent.val < 0) :
    r.parse q.ascii = .ok q := by
  have float := Decimal.isFloat_plain finite
  have read := Decimal.readFloat?_plain finite
  obtain ⟨ts, tail, resolved⟩ := Factor.exists_tail readable
  have text := toList_ascii q
  rw [Layout.foldl_add readable (.inr divisors)] at text
  simp only [List.nil_append] at text
  obtain ⟨cs, slash⟩ : ∃ cs, q.units.flatMap Factor.following = '/' :: cs := by
    obtain ⟨u, us, units⟩ := List.exists_cons_of_ne_nil some
    rw [units] at divisors ⊢
    rw [List.flatMap_cons, Factor.following, if_pos (divisors u List.mem_cons_self)]
    exact ⟨_, rfl⟩
  have scanned : scan? q.ascii.toList = .some (.physical (.some (Numeral.ofFloat q.amount).plain) ts) := by
    have tokens := scanTail?_eq_some_iff.mpr tail
    rw [slash] at tokens
    rw [text, slash, scan?_of_float float, scanPhysical?_divisors float, tokens, Option.map_some]
  rw [parse_of_scan (trim_ascii finite readable) scanned, evaluate_physical read resolved]

theorem standard_joint {l : Layout} (readable : u.Readable standard) (amount : l.amount ≠ [])
    (fresh : l.hasProduct = false) :
    (l.joint .ascii u = [' '] ∨ l.joint .ascii u = [] ∧ ∃ c ∈ angleMarks, u.spelling.toList = [c]) := by
  unfold Layout.joint
  rw [fresh]
  cases attaches : u.base.attachesToNumeral with
  | false => simp [amount]
  | true =>
    refine .inr ⟨by simp, ?_⟩
    exact standard_attaches readable.reading attaches

/-- The first factor is no divisor: it follows the number after a space, or as a mark of angles. -/
theorem standard_parse_ascii_product (finite : q.amount.isFinite = true) (units : q.units = u :: us)
    (readable : ∀ u ∈ q.units, u.Readable standard) (nonneg : 0 ≤ u.exponent.val) :
    standard.parse q.ascii = .ok q := by
  have float := Decimal.isFloat_plain finite
  have read := Decimal.readFloat?_plain finite
  have text := toList_ascii q
  have trimmed := trim_ascii finite readable
  rw [units, List.forall_mem_cons] at readable
  obtain ⟨t, unit, resolved⟩ := readable.1.render nonneg
  obtain ⟨ts, tail, more⟩ := Factor.exists_tail readable.2
  rw [units, List.foldl_cons, Layout.add_product readable.1 nonneg, Layout.foldl_add readable.2 (.inl rfl)] at text
  have joint := standard_joint (l := ⟨(Numeral.ofFloat q.amount).plain, [], false⟩) readable.1 float.ne_nil rfl
  generalize Layout.joint _ _ _ = gap at text joint
  generalize (Numeral.ofFloat q.amount).plain = a at text float read
  have stop : ∀ c ∈ (gap ++ (u.render .ascii ++ us.flatMap Factor.following)).head?, isNumberChar c = false := by
    rcases joint with rfl | ⟨rfl, c, mark, spelling⟩
    · simp [isNumberChar]
    · have first : u.render .ascii = c :: _ := congrArg (· ++ _) spelling
      simpa [first] using (angleMarks_spec c mark).1
  have scanned : scan? q.ascii.toList = some (.physical (some a) (t :: ts)) := by
    rw [text, ← scan?_product float (joint.imp id And.left) stop unit tail]
    simp
  have tokens : (t :: ts).mapM standard.resolveToken = .ok (u :: us) := by
    rw [List.mapM_cons, resolved, more]
    rfl
  rw [parse_of_scan trimmed scanned, evaluate_physical read tokens, ← units]

theorem standard_parse_ascii (finite : q.amount.isFinite = true) (some : q.units ≠ [])
    (readable : ∀ u ∈ q.units, u.Readable standard) (placed : ¬Stranded q.units) : standard.parse q.ascii = .ok q := by
  obtain ⟨u, us, units⟩ := List.exists_cons_of_ne_nil some
  rcases Int.lt_or_le u.exponent.val 0 with negative | nonneg
  · refine parse_ascii_divisors finite some readable ?_
    intro v member
    by_contra nonneg
    refine placed ⟨⟨u, ?_, negative⟩, v, member, Int.not_lt.mp nonneg⟩
    rw [units]
    rfl
  · exact standard_parse_ascii_product finite units readable nonneg

/-! ### Texts that are refused -/

/-- A divisor is scanned together with a mark that follows it, or the mark is left over. -/
theorem standard_scan_mark {c : Char} (readable : w.Readable standard) (negative : w.exponent.val < 0)
    (mark : c ∈ angleMarks) (stop : ∀ d ∈ rest.head?, isSymbolChar d = false) {ts : List Token}
    (scanned : scanTail? (w.following ++ c :: rest) = some ts) :
    ∃ t ∈ ts, ∀ x, standard.resolveToken t ≠ .ok x := by
  obtain ⟨-, leftover, letter, -⟩ := angleMarks_spec c mark
  rw [Factor.following, if_pos negative, List.cons_append] at scanned
  obtain ⟨operator, t, rest', ts', sign, unit, more, rfl⟩ := scanTail?_cons_ok scanned
  by_cases one : -w.exponent.val = 1
  · -- Nothing parts the mark from the spelling, and no token but the mark itself ends in it.
    have written : w.renderReciprocal .ascii ++ c :: rest = (w.spelling.toList ++ [c]) ++ rest := by
      rw [Factor.renderReciprocal, Factor.renderPower, if_pos one]
      simp
    rw [written] at unit
    have letters : ∀ d ∈ w.spelling.toList ++ [c], isSymbolChar d = true := by
      rw [List.forall_mem_append, List.forall_mem_singleton]
      exact ⟨readable.isSpelling.isSymbolChar, letter⟩
    have spelling := spelling_of_scanUnit? unit
    rw [takeWhile_append_stop letters stop] at spelling
    refine ⟨t, List.mem_cons_self, ?_⟩
    intro x resolved
    obtain ⟨reading, read, -⟩ := resolveToken_ok resolved
    rw [spelling, standard_mark mark readable.isSpelling.ne_nil] at read
    cases read
  · -- The digits of the exponent end the unit, and the mark is no operator.
    obtain ⟨e, opposite⟩ := readable.opposite
    have digits := isDigits_toDigits (-w.exponent.val).natAbs
    have written : w.renderReciprocal .ascii ++ c :: rest =
        w.spelling.toList ++ (Nat.toDigits 10 (-w.exponent.val).natAbs ++ c :: rest) := by
      rw [Factor.renderReciprocal, Factor.renderPower, if_neg one, Style.exponent, plain_of_nonneg (by omega)]
      simp
    have value : e.val = Nat.ofDigitChars 10 (Nat.toDigits 10 (-w.exponent.val).natAbs) 0 := by
      rw [Nat.ofDigitChars_toDigits (by decide) (by decide)]
      omega
    have point : ∀ d ∈ (c :: rest).head?, d.isDigit = false := by simpa using isDigit_of_isSymbolChar letter
    rw [written, scanUnit?_digits readable.isSpelling digits value point] at unit
    obtain ⟨-, rfl⟩ := Prod.mk.inj (Option.some.inj unit)
    rw [scanTail?_of_not_operator leftover] at more
    cases more

theorem standard_scan_gap {gap : List Char} (hw : w.Readable standard) (negative : w.exponent.val < 0)
    (nonneg : 0 ≤ v.exponent.val) (following : ∀ u ∈ us, u.Readable standard)
    (joint : gap = [' '] ∨ gap = [] ∧ ∃ c ∈ angleMarks, v.spelling.toList = [c]) (ts : List Token)
    (scanned : scanTail? (w.following ++ (gap ++ (v.render .ascii ++ us.flatMap Factor.following))) = some ts) :
    ∃ t ∈ ts, ∀ x, standard.resolveToken t ≠ .ok x := by
  rcases joint with rfl | ⟨rfl, c, mark, spelling⟩
  · obtain ⟨d, operator, cs, t, text, sign, unit, -⟩ := hw.following
    have stop : EndsUnit (' ' :: (v.render .ascii ++ us.flatMap Factor.following)) := by simp [EndsUnit, isSymbolChar]
    rw [text, List.cons_append, List.cons_append, List.nil_append,
      scanTail?_of_operator sign (scanUnit?_exact unit stop), scanTail?_of_not_operator rfl] at scanned
    cases scanned
  · obtain ⟨ts', tail, -⟩ := Factor.exists_tail following
    obtain ⟨e, exponent, -⟩ := Factor.exists_exponent nonneg
    rw [Factor.render, Factor.renderPower, spelling] at scanned
    exact standard_scan_mark hw negative mark (fun d => exponent.head tail.ends) (by simpa using scanned)

theorem toList_ascii_stranded {front back : List (Factor Float)} (units : q.units = front ++ w :: v :: back)
    (readable : ∀ u ∈ q.units, u.Readable standard) (divisors : ∀ u ∈ front, u.exponent.val < 0)
    (negative : w.exponent.val < 0) (nonneg : 0 ≤ v.exponent.val) (finite : q.amount.isFinite = true) :
    ∃ gap, (gap = [' '] ∨ gap = [] ∧ ∃ c ∈ angleMarks, v.spelling.toList = [c]) ∧
      q.ascii.toList = (Numeral.ofFloat q.amount).plain ++ (front.flatMap Factor.following ++
        (w.following ++ (gap ++ (v.render .ascii ++ back.flatMap Factor.following)))) := by
  have float := Decimal.isFloat_plain finite
  have text := toList_ascii q
  rw [units, List.forall_mem_append, List.forall_mem_cons, List.forall_mem_cons] at readable
  obtain ⟨hf, hw, hv, hb⟩ := readable
  rw [units, List.foldl_append, List.foldl_cons, List.foldl_cons, Layout.foldl_add hf (.inr divisors),
    Layout.add_divisor negative, Layout.add_product hv nonneg, Layout.foldl_add hb (.inl rfl)] at text
  have joint := standard_joint hv float.ne_nil rfl (l := ⟨(Numeral.ofFloat q.amount).plain,
    [] ++ front.flatMap Factor.following ++ w.following, false⟩)
  refine ⟨_, joint, ?_⟩
  rw [text]
  simp

theorem exists_slash (divisors : ∀ u ∈ us, u.exponent.val < 0) (negative : w.exponent.val < 0) (rest : List Char) :
    ∃ cs, us.flatMap Factor.following ++ (w.following ++ rest) = '/' :: cs := by
  have slash : ∀ {u : Factor Float}, u.exponent.val < 0 → u.following = '/' :: u.renderReciprocal .ascii := by
    intro u negative
    rw [Factor.following, if_pos negative]
  cases us with
  | nil => exact ⟨_, by rw [slash negative]; rfl⟩
  | cons u us => exact ⟨_, by rw [List.flatMap_cons, slash (divisors u List.mem_cons_self)]; rfl⟩

theorem standard_parse_ascii_stranded (finite : q.amount.isFinite = true)
    (readable : ∀ u ∈ q.units, u.Readable standard) (stranded : Stranded q.units) :
    ∃ e, standard.parse q.ascii = .error e := by
  have float := Decimal.isFloat_plain finite
  obtain ⟨front, w, v, back, units, divisors, negative, nonneg⟩ := stranded.split
  obtain ⟨gap, joint, text⟩ := toList_ascii_stranded units readable divisors negative nonneg finite
  have trimmed := trim_ascii finite readable
  rw [units, List.forall_mem_append, List.forall_mem_cons, List.forall_mem_cons] at readable
  obtain ⟨hf, hw, hv, hb⟩ := readable
  obtain ⟨before, initial, -⟩ := Factor.exists_tail hf
  have unread := standard_scan_gap hw negative nonneg hb joint
  generalize gap ++ (v.render .ascii ++ back.flatMap Factor.following) = rest at text unread
  obtain ⟨cs, slash⟩ := exists_slash divisors negative rest
  have ends : EndsUnit (w.following ++ rest) := by
    rw [Factor.following, if_pos negative]
    simp [EndsUnit, isSymbolChar]
  have scanned : scan? q.ascii.toList = (scanTail? (w.following ++ rest)).map
      fun ts => .physical (some (Numeral.ofFloat q.amount).plain) (before ++ ts) := by
    rw [text, scan?_of_float float, slash, scanPhysical?_divisors float, ← slash, scanTail?_append initial ends,
      Option.map_map]
    rfl
  cases parsed : standard.parse q.ascii with
  | error e => exact ⟨e, rfl⟩
  | ok q' =>
    rw [parse, trimmed, scanned] at parsed
    cases left : scanTail? (w.following ++ rest) with
    | none => simp [left] at parsed
    | some ts =>
      obtain ⟨t, member, unknown⟩ := unread ts left
      rw [left] at parsed
      obtain ⟨x, -, parsed⟩ := bind_ok parsed
      obtain ⟨units, resolved, -⟩ := bind_ok parsed
      obtain ⟨u, found⟩ := ok_of_mem_mapM resolved (List.mem_append_right _ member)
      exact absurd found (unknown u)

end Registry

end Metrology
