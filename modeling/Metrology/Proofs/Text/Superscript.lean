import Metrology.Proofs.Text.Integer

/-!
Raised text in plain characters. `lower` writes `×10` and a raised integer as `e` and the integer, every other
raised integer in plain digits, and a dot as a star. `Lowers` builds a text and its plain form side by side from
such pieces. Main statement: `Lowers.lower_eq`, the plain form is what `lower` makes of the text.
-/

namespace Metrology.Text

variable {c : Char} {cs cs' ds ds' rest text : List Char} {n : Int}

/-! ### The rewriting -/

def raisedDigits : List Char :=
  ['⁰', '¹', '²', '³', '⁴', '⁵', '⁶', '⁷', '⁸', '⁹']

def isRaisedDigit (c : Char) : Bool :=
  raisedDigits.contains c

/-- The digit in place of a raised one. -/
def plainDigit (c : Char) : Char :=
  match c with
  | '⁰' => '0'
  | '¹' => '1'
  | '²' => '2'
  | '³' => '3'
  | '⁴' => '4'
  | '⁵' => '5'
  | '⁶' => '6'
  | '⁷' => '7'
  | '⁸' => '8'
  | '⁹' => '9'
  | c => c

/-- A raised minus at the front of a text, in plain, and the rest. -/
def raisedMinus : List Char → List Char × List Char
  | '⁻' :: cs => (['-'], cs)
  | cs => ([], cs)

/-- The longest raised integer at the front of a text, in plain, and the rest. -/
def raisedInteger? (cs : List Char) : Option (List Char × List Char) :=
  let (minus, rest) := raisedMinus cs
  let digits := rest.takeWhile isRaisedDigit
  if digits = [] then none else some (minus ++ digits.map plainDigit, rest.dropWhile isRaisedDigit)

/-- A power of ten or a raised integer at the front of a text, in plain, and the rest. -/
def raised? : List Char → Option (List Char × List Char)
  | '×' :: '1' :: '0' :: cs => (raisedInteger? cs).map fun (n, rest) => ('e' :: n, rest)
  | cs => raisedInteger? cs

theorem length_of_raisedInteger? (h : raisedInteger? cs = some (text, rest)) : rest.length < cs.length := by
  have minus : (raisedMinus cs).2.length ≤ cs.length := by
    unfold raisedMinus
    split
    · exact Nat.le_succ _
    · exact Nat.le_refl _
  unfold raisedInteger? at h
  dsimp only at h
  split at h
  · cases h
  · rename_i digits
    cases h
    have parts := congrArg List.length (List.takeWhile_append_dropWhile (p := isRaisedDigit) (l := (raisedMinus cs).2))
    have some := List.length_pos_iff.mpr digits
    rw [List.length_append] at parts
    omega

theorem length_of_raised? (h : raised? cs = some (text, rest)) : rest.length < cs.length := by
  unfold raised? at h
  split at h
  · obtain ⟨⟨integer, rest⟩, found, same⟩ := Option.map_eq_some_iff.mp h
    cases same
    have shorter := length_of_raisedInteger? found
    simp only [List.length_cons]
    omega
  · exact length_of_raisedInteger? h

/-- The text with all that is raised set down in plain characters. -/
def lower : List Char → List Char
  | [] => []
  | c :: cs =>
    match h : raised? (c :: cs) with
    | some (text, rest) =>
      have : rest.length < (c :: cs).length := length_of_raised? h
      text ++ lower rest
    | none => (if c = '⋅' then '*' else c) :: lower cs
termination_by cs => cs.length
decreasing_by
  · assumption
  · exact Nat.lt_succ_self _

theorem lower_of_raised? (h : raised? cs = some (text, rest)) : lower cs = text ++ lower rest := by
  cases cs with
  | nil => cases h
  | cons c cs =>
    rw [lower]
    split
    · rename_i found
      cases h.symm.trans found
      rfl
    · rename_i missing
      cases h.symm.trans missing

theorem lower_of_not_raised (h : raised? (c :: cs) = none) :
    lower (c :: cs) = (if c = '⋅' then '*' else c) :: lower cs := by
  rw [lower]
  split
  · rename_i found
    cases h.symm.trans found
  · rfl

/-! ### Pieces of a text -/

/-- The characters at which `lower` may change a text. -/
def isMark (c : Char) : Bool :=
  isRaisedDigit c || ['⁻', '×', '⋅'].contains c

theorem isMark_of_ascii (h : c.toNat < 128) : isMark c = false := by
  have beyond : ∀ d ∈ raisedDigits ++ ['⁻', '×', '⋅'], 128 ≤ d.toNat := by simp [raisedDigits]
  rw [← Bool.not_eq_true]
  intro mark
  have high := beyond c (by simpa [isMark, isRaisedDigit] using mark)
  omega

theorem isRaisedDigit_of_unmarked (h : isMark c = false) : isRaisedDigit c = false := by
  rw [isMark, Bool.or_eq_false_iff] at h
  exact h.1

theorem raisedMinus_of_ne (h : c ≠ '⁻') : raisedMinus (c :: cs) = ([], c :: cs) := by
  unfold raisedMinus
  split
  · rename_i same
    exact absurd (List.cons.inj same).1 h
  · rfl

theorem raisedInteger?_eq_none (digit : isRaisedDigit c = false) (minus : c ≠ '⁻') : raisedInteger? (c :: cs) = none := by
  simp [raisedInteger?, raisedMinus_of_ne minus, digit]

theorem raised?_eq_none (digit : isRaisedDigit c = false) (minus : c ≠ '⁻') (times : c ≠ '×') :
    raised? (c :: cs) = none := by
  unfold raised?
  split
  · rename_i same
    exact absurd (List.cons.inj same).1 times
  · exact raisedInteger?_eq_none digit minus

theorem lower_unmarked (h : isMark c = false) : lower (c :: cs) = c :: lower cs := by
  simp [isMark] at h
  obtain ⟨digit, minus, times, dot⟩ := h
  rw [lower_of_not_raised (raised?_eq_none digit minus times), if_neg dot]

theorem lower_dot : lower ('⋅' :: cs) = '*' :: lower cs :=
  lower_of_not_raised (raised?_eq_none (by decide) (by decide) (by decide))

theorem superscriptDigit_spec (h : c.isDigit = true) :
    isRaisedDigit (superscriptDigit c) = true ∧ plainDigit (superscriptDigit c) = c := by
  have table : ∀ n < 58, (Char.ofNat n).isDigit = true →
      isRaisedDigit (superscriptDigit (Char.ofNat n)) = true ∧ plainDigit (superscriptDigit (Char.ofNat n)) = Char.ofNat n := by
    decide +kernel
  have code := Char.isDigit_iff_toNat.mp h
  simp at code
  rw [← Char.ofNat_toNat c] at h ⊢
  exact table c.toNat (by omega) h

theorem raisedInteger?_digits {minus : List Char} (sign : raisedMinus cs = (minus, ds.map superscriptDigit ++ rest))
    (digits : IsDigits ds) (stop : ∀ c ∈ rest.head?, isRaisedDigit c = false) :
    raisedInteger? cs = some (minus ++ ds, rest) := by
  have raised : ∀ c ∈ ds.map superscriptDigit, isRaisedDigit c = true := by
    rw [List.forall_mem_map]
    exact fun c member => (superscriptDigit_spec (digits.isDigit c member)).1
  have back : (ds.map superscriptDigit).map plainDigit = ds := by
    rw [List.map_map]
    exact (List.map_congr_left fun c member => (superscriptDigit_spec (digits.isDigit c member)).2).trans (List.map_id ds)
  unfold raisedInteger?
  rw [sign]
  dsimp only
  rw [takeWhile_append_stop raised stop, dropWhile_append_stop raised stop, back, if_neg]
  simpa using digits.ne_nil

theorem superscript_of_neg (h : n < 0) : superscript n = '⁻' :: (Nat.toDigits 10 n.natAbs).map superscriptDigit := by
  rw [superscript, plain_of_neg h]
  rfl

theorem superscript_of_nonneg (h : 0 ≤ n) : superscript n = (Nat.toDigits 10 n.natAbs).map superscriptDigit := by
  rw [superscript, plain_of_nonneg h]

/-- An integer begins with a raised minus or a raised digit. -/
theorem exists_superscript (n : Int) :
    ∃ c cs, superscript n = c :: cs ∧ isMark c = true ∧ (0 ≤ n → c ≠ '⁻') := by
  rcases Int.lt_or_le n 0 with negative | nonneg
  · exact ⟨_, _, superscript_of_neg negative, by decide, fun nonneg => absurd negative (Int.not_lt.mpr nonneg)⟩
  · obtain ⟨c, ds, same, digit⟩ := (isDigits_toDigits n.natAbs).exists_cons
    have raised := (superscriptDigit_spec digit).1
    refine ⟨superscriptDigit c, ds.map superscriptDigit, ?_, ?_, fun _ minus => ?_⟩
    · rw [superscript_of_nonneg nonneg, same, List.map_cons]
    · rw [isMark, raised, Bool.true_or]
    · rw [minus] at raised
      exact absurd raised (by decide)

theorem raisedInteger?_superscript (n : Int) (stop : ∀ c ∈ rest.head?, isRaisedDigit c = false) :
    raisedInteger? (superscript n ++ rest) = some (plain n, rest) := by
  have digits := isDigits_toDigits n.natAbs
  rcases Int.lt_or_le n 0 with negative | nonneg
  · have sign : raisedMinus (superscript n ++ rest) = (['-'], (Nat.toDigits 10 n.natAbs).map superscriptDigit ++ rest) := by
      rw [superscript_of_neg negative]
      rfl
    rw [raisedInteger?_digits sign digits stop, plain_of_neg negative]
    rfl
  · have sign : raisedMinus (superscript n ++ rest) = ([], (Nat.toDigits 10 n.natAbs).map superscriptDigit ++ rest) := by
      obtain ⟨c, cs, text, -, other⟩ := exists_superscript n
      rw [← superscript_of_nonneg nonneg, text, List.cons_append, raisedMinus_of_ne (other nonneg)]
    rw [raisedInteger?_digits sign digits stop, plain_of_nonneg nonneg]
    rfl

theorem lower_superscript (n : Int) (stop : ∀ c ∈ rest.head?, isRaisedDigit c = false) :
    lower (superscript n ++ rest) = plain n ++ lower rest := by
  have found := raisedInteger?_superscript n stop
  refine lower_of_raised? ?_
  unfold raised?
  split
  · rename_i same
    rw [same, raisedInteger?_eq_none (by decide) (by decide)] at found
    cases found
  · exact found

theorem lower_power (n : Int) (stop : ∀ c ∈ rest.head?, isRaisedDigit c = false) :
    lower ('×' :: '1' :: '0' :: (superscript n ++ rest)) = 'e' :: (plain n ++ lower rest) := by
  have found : raised? ('×' :: '1' :: '0' :: (superscript n ++ rest)) = some ('e' :: plain n, rest) := by
    rw [raised?, raisedInteger?_superscript n stop]
    rfl
  rw [lower_of_raised? found, List.cons_append]

/-! ### Texts and their plain form -/

theorem head?_append_stop (first : ∀ c ∈ cs.head?, isRaisedDigit c = false)
    (second : ∀ c ∈ cs'.head?, isRaisedDigit c = false) : ∀ c ∈ (cs ++ cs').head?, isRaisedDigit c = false := by
  cases cs with
  | nil => exact second
  | cons c cs => exact first

/-- A text of pieces that `lower` takes one by one, and the plain form of it. -/
inductive Lowers : List Char → List Char → Prop where
  | nil : Lowers [] []
  | char {c : Char} {cs ds : List Char} (unmarked : isMark c = false) (more : Lowers cs ds) : Lowers (c :: cs) (c :: ds)
  | dot {cs ds : List Char} (more : Lowers cs ds) : Lowers ('⋅' :: cs) ('*' :: ds)
  | integer (n : Int) {cs ds : List Char} (stop : ∀ c ∈ cs.head?, isRaisedDigit c = false) (more : Lowers cs ds) :
    Lowers (superscript n ++ cs) (plain n ++ ds)
  | power (n : Int) {cs ds : List Char} (stop : ∀ c ∈ cs.head?, isRaisedDigit c = false) (more : Lowers cs ds) :
    Lowers ('×' :: '1' :: '0' :: (superscript n ++ cs)) ('e' :: (plain n ++ ds))

namespace Lowers

theorem lower_eq (h : Lowers cs ds) : lower cs = ds := by
  induction h with
  | nil => rw [lower]
  | char unmarked _ ih => rw [lower_unmarked unmarked, ih]
  | dot _ ih => rw [lower_dot, ih]
  | integer n stop _ ih => rw [lower_superscript n stop, ih]
  | power n stop _ ih => rw [lower_power n stop, ih]

theorem append (h : Lowers cs ds) (h' : Lowers cs' ds') (stop : ∀ c ∈ cs'.head?, isRaisedDigit c = false) :
    Lowers (cs ++ cs') (ds ++ ds') := by
  induction h with
  | nil => exact h'
  | char unmarked _ ih => exact .char unmarked ih
  | dot _ ih => exact .dot ih
  | integer n first _ ih =>
    rw [List.append_assoc, List.append_assoc]
    exact .integer n (head?_append_stop first stop) ih
  | power n first _ ih =>
    rw [List.cons_append, List.cons_append, List.cons_append, List.cons_append, List.append_assoc, List.append_assoc]
    exact .power n (head?_append_stop first stop) ih

/-- Before a text that is written the same in both forms nothing can be continued. -/
theorem unmarked_append (unmarked : ∀ c ∈ cs, isMark c = false) (h : Lowers cs' ds') : Lowers (cs ++ cs') (cs ++ ds') := by
  induction cs with
  | nil => exact h
  | cons c cs ih =>
    rw [List.forall_mem_cons] at unmarked
    exact .char unmarked.1 (ih unmarked.2)

theorem append_unmarked (h : Lowers cs ds) (unmarked : ∀ c ∈ cs', isMark c = false) : Lowers (cs ++ cs') (ds ++ cs') := by
  refine h.append ?_ fun c head => isRaisedDigit_of_unmarked (unmarked c (List.mem_of_mem_head? head))
  simpa using unmarked_append unmarked .nil

theorem superscript (n : Int) : Lowers (superscript n) (plain n) := by
  simpa using Lowers.integer n (by simp) .nil

theorem exists_of_cons (h : Lowers (c :: cs) ds) (unmarked : isMark c = false) :
    ∃ ds', ds = c :: ds' ∧ Lowers cs ds' := by
  generalize whole : c :: cs = text at h
  cases h with
  | nil => cases whole
  | char _ more =>
    cases whole
    exact ⟨_, rfl, more⟩
  | dot more =>
    cases whole
    exact absurd unmarked (by decide)
  | integer n =>
    obtain ⟨d, tail, head, mark, -⟩ := exists_superscript n
    rw [head] at whole
    cases whole
    exact absurd unmarked (by rw [mark]; decide)
  | power =>
    cases whole
    exact absurd unmarked (by decide)

end Lowers

end Metrology.Text
