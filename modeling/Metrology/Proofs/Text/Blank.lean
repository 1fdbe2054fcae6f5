import Mathlib.Data.List.Basic
import Metrology.Text.Blank

/-!
White space at the ends of a text. `trim_eq`: a text that begins and ends in other characters is kept as it is.
-/

namespace Metrology.Text

variable {cs front back : List Char} {c : Char}

theorem isBlank_eq_false (above : 32 < c.toNat) (ascii : c.toNat < 128) : isBlank c = false := by
  rw [← Bool.not_eq_true]
  intro blank
  simp [isBlank, blankRuns] at blank
  omega

theorem toNat_of_isAlpha (h : c.isAlpha = true) :
    65 ≤ c.toNat ∧ c.toNat ≤ 90 ∨ 97 ≤ c.toNat ∧ c.toNat ≤ 122 := by
  change (decide (c.val ≥ 65 ∧ c.val ≤ 90) || decide (c.val ≥ 97) && decide (c.val ≤ 122)) = true at h
  simpa [UInt32.le_iff_toNat_le] using h

theorem isBlank_of_isAlpha (h : c.isAlpha = true) : isBlank c = false := by
  have letter := toNat_of_isAlpha h
  apply isBlank_eq_false <;> omega

theorem isBlank_of_isDigit (h : c.isDigit = true) : isBlank c = false := by
  have digit := Char.isDigit_iff_toNat.mp h
  simp at digit
  apply isBlank_eq_false <;> omega

theorem dropWhile_isBlank (head : ∀ c ∈ cs.head?, isBlank c = false) : cs.dropWhile isBlank = cs := by
  cases cs with
  | nil => rfl
  | cons c cs => simp [head c rfl]

theorem trim_eq (first : ∀ c ∈ cs.head?, isBlank c = false) (last : ∀ c ∈ cs.getLast?, isBlank c = false) :
    trim cs = cs := by
  have reversed : ∀ c ∈ cs.reverse.head?, isBlank c = false := by
    rwa [List.head?_reverse]
  unfold trim
  rw [dropWhile_isBlank first, dropWhile_isBlank reversed, List.reverse_reverse]

theorem getLast?_append_solid (hf : ∀ c ∈ front.getLast?, isBlank c = false)
    (hb : ∀ c ∈ back.getLast?, isBlank c = false) : ∀ c ∈ (front ++ back).getLast?, isBlank c = false := by
  intro c last
  rw [List.getLast?_append] at last
  rcases Option.or_eq_some_iff.mp last with last | ⟨-, last⟩
  · exact hb c last
  · exact hf c last

theorem trim_append (some : front ≠ []) (solid : ∀ c ∈ front, isBlank c = false)
    (last : ∀ c ∈ back.getLast?, isBlank c = false) : trim (front ++ back) = front ++ back := by
  apply trim_eq
  · intro c head
    rw [List.head?_append, Option.or_of_isSome (by simpa using some)] at head
    exact solid c (List.mem_of_head? head)
  · apply getLast?_append_solid _ last
    intro c ends
    exact solid c (List.mem_of_getLast? ends)

end Metrology.Text
