import Mathlib.Data.List.Basic

/-!
Lines of characters and of bytes. In UTF-8 the byte 10 is the line feed and no part of any other character
(`newline_mem_utf8EncodeChar`), so the lines of an encoded text are the encoded lines (`splitOn_encoded`).
-/

namespace Metrology.Text

/-! ### Pieces -/

section Pieces

variable {β : Type} [BEq β] [LawfulBEq β] {xs : List β} {a : β}

/-- What comes before the first separator becomes part of the first piece. -/
theorem splitOn_append_of_not_mem (absent : a ∉ xs) (ys : List β) :
    (xs ++ ys).splitOn a = (ys.splitOn a).modifyHead (xs ++ ·) := by
  induction xs with
  | nil =>
    rw [List.nil_append]
    cases ys.splitOn a <;> rfl
  | cons x xs ih =>
    rw [List.mem_cons, not_or] at absent
    have other : ¬(x == a) = true := fun same => absent.1 (eq_of_beq same).symm
    rw [List.cons_append, List.splitOn_cons_eq_if_modifyHead, if_neg other, ih absent.2]
    cases ys.splitOn a <;> rfl

/-- All pieces but the last are settled, whatever follows; the last is still open. -/
theorem exists_open_piece (a : β) (xs : List β) :
    ∃ settled rest, xs.splitOn a = settled ++ [rest] ∧
      ∀ ys, (xs ++ ys).splitOn a = settled ++ (rest ++ ys).splitOn a := by
  by_cases separated : a ∈ xs
  · obtain ⟨back, front, reversed, absent⟩ := List.eq_append_cons_of_mem (List.mem_reverse.mpr separated)
    have parts : xs = front.reverse ++ a :: back.reverse := by
      simpa using congrArg List.reverse reversed
    have last : a ∉ back.reverse := fun member => absent (List.mem_reverse.mp member)
    refine ⟨front.reverse.splitOn a, back.reverse, ?_, fun ys => ?_⟩
    · rw [parts, List.splitOn_append_cons_self, List.splitOn_eq_singleton last]
    · rw [parts, List.append_assoc, List.cons_append, List.splitOn_append_cons_self]
  · exact ⟨[], xs, List.splitOn_eq_singleton separated, fun _ => rfl⟩

end Pieces

/-! ### Lines in UTF-8 -/

theorem newline_mem_utf8EncodeChar {c : Char} : 10 ∈ String.utf8EncodeChar c ↔ c = '\n' := by
  constructor
  · intro member
    have code : c.toNat = 10 := by
      have value : c.val.toNat = c.toNat := rfl
      simp only [String.utf8EncodeChar, value] at member
      -- the bytes of a longer encoding are 128 or more
      split_ifs at member <;> simp [← UInt8.toNat_inj] at member <;> omega
    exact Char.ext (UInt32.toNat_inj.mp code)
  · rintro rfl
    decide

theorem utf8EncodeChar_newline : String.utf8EncodeChar '\n' = [10] := by
  decide

theorem splitOn_encoded (cs : List Char) :
    (cs.flatMap String.utf8EncodeChar).splitOn 10 = (cs.splitOn '\n').map (·.flatMap String.utf8EncodeChar) := by
  induction cs with
  | nil => rfl
  | cons c cs ih =>
    rw [List.flatMap_cons, List.splitOn_cons_eq_if_modifyHead]
    by_cases newline : c = '\n'
    · subst newline
      rw [utf8EncodeChar_newline, List.singleton_append, List.splitOn_cons_eq_if_modifyHead,
        if_pos (beq_self_eq_true _), if_pos (beq_self_eq_true _), ih]
      rfl
    · rw [splitOn_append_of_not_mem (mt newline_mem_utf8EncodeChar.mp newline), ih, if_neg (by simpa using newline)]
      cases cs.splitOn '\n' <;> rfl

end Metrology.Text
