import Mathlib.Data.List.TakeWhile
import Metrology.Text.Integer

/-!
Runs of digits and the integers that they spell. `readInt?_plain`: an integer is read back from
what `plain` writes.
-/

namespace Metrology.Text

variable {cs ds rest : List Char} {p : Char → Bool}

/-- At least one character, and digits only. -/
structure IsDigits (cs : List Char) : Prop where
  ne_nil : cs ≠ []
  isDigit : ∀ c ∈ cs, c.isDigit = true

theorem isDigits_toDigits (n : Nat) : IsDigits (Nat.toDigits 10 n) :=
  ⟨Nat.toDigits_ne_nil, fun _ => Nat.isDigit_of_mem_toDigits (by decide) (by decide)⟩

theorem IsDigits.exists_cons (h : IsDigits ds) : ∃ c cs, ds = c :: cs ∧ c.isDigit = true := by
  obtain ⟨c, cs, rfl⟩ := List.exists_cons_of_ne_nil h.ne_nil
  exact ⟨c, cs, rfl, h.isDigit c List.mem_cons_self⟩

theorem IsDigits.append (h : IsDigits ds) (digits : ∀ c ∈ cs, c.isDigit = true) : IsDigits (ds ++ cs) := by
  refine ⟨by simp [h.ne_nil], ?_⟩
  intro c member
  rcases List.mem_append.mp member with member | member
  · exact h.isDigit c member
  · exact digits c member

/-! ### Runs up to a boundary -/

theorem takeWhile_append_stop (inside : ∀ c ∈ cs, p c = true) (stop : ∀ c ∈ rest.head?, p c = false) :
    (cs ++ rest).takeWhile p = cs := by
  rw [List.takeWhile_append_of_pos inside]
  cases rest with
  | nil => simp
  | cons c rest => simp [stop c rfl]

theorem dropWhile_append_stop (inside : ∀ c ∈ cs, p c = true) (stop : ∀ c ∈ rest.head?, p c = false) :
    (cs ++ rest).dropWhile p = rest := by
  rw [List.dropWhile_append_of_pos inside]
  cases rest with
  | nil => simp
  | cons c rest => simp [stop c rfl]

/-! ### Integers -/

theorem readNat?_digits (h : IsDigits ds) : readNat? ds = some (Nat.ofDigitChars 10 ds 0) := by
  unfold readNat?
  rw [if_pos ⟨h.ne_nil, by simpa using h.isDigit⟩]

theorem splitSign_digits (h : IsDigits ds) : splitSign ds = (false, ds) := by
  obtain ⟨c, cs, rfl, digit⟩ := h.exists_cons
  unfold splitSign
  split
  · simp_all
  · simp_all
  · rfl

theorem readInt?_digits (h : IsDigits ds) : readInt? ds = some (Nat.ofDigitChars 10 ds 0 : Int) := by
  simp [readInt?, splitSign_digits h, readNat?_digits h]

theorem readInt?_minus (h : IsDigits ds) : readInt? ('-' :: ds) = some (-(Nat.ofDigitChars 10 ds 0 : Int)) := by
  simp [readInt?, splitSign, readNat?_digits h]

theorem readInt?_plus (h : IsDigits ds) : readInt? ('+' :: ds) = some (Nat.ofDigitChars 10 ds 0 : Int) := by
  simp [readInt?, splitSign, readNat?_digits h]

theorem plain_of_nonneg {n : Int} (h : 0 ≤ n) : plain n = Nat.toDigits 10 n.natAbs := by
  rw [plain, if_neg (by omega)]

theorem plain_of_neg {n : Int} (h : n < 0) : plain n = '-' :: Nat.toDigits 10 n.natAbs := by
  rw [plain, if_pos h]

theorem readInt?_plain (n : Int) : readInt? (plain n) = some n := by
  have digits := isDigits_toDigits n.natAbs
  have value : Nat.ofDigitChars 10 (Nat.toDigits 10 n.natAbs) 0 = n.natAbs :=
    Nat.ofDigitChars_toDigits (by decide) (by decide)
  rcases Int.lt_or_le n 0 with negative | nonneg
  · rw [plain_of_neg negative, readInt?_minus digits, value, Int.ofNat_natAbs_of_nonpos (Int.le_of_lt negative), Int.neg_neg]
  · rw [plain_of_nonneg nonneg, readInt?_digits digits, value, Int.natAbs_of_nonneg nonneg]

end Metrology.Text
