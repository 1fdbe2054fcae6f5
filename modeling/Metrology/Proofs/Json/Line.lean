import Metrology.Json.Basic
import Metrology.Proofs.Decimal.Numeral

/-!
A JSON value is written on one line: strings have their control characters escaped, numbers consist of the
characters of numbers, and the rest is punctuation. Main statement: `printable_write`.
-/

namespace Metrology.Json
open Text Expression

variable {c : Char} {cs ds : List Char} {pieces : List (List Char)} {d : Decimal}

/-- Without control characters. -/
def Printable (cs : List Char) : Prop :=
  ∀ c ∈ cs, 32 ≤ c.toNat

instance (cs : List Char) : Decidable (Printable cs) :=
  List.decidableBAll _ cs

@[simp] theorem printable_nil : Printable [] := nofun

@[simp] theorem printable_cons : Printable (c :: cs) ↔ 32 ≤ c.toNat ∧ Printable cs :=
  List.forall_mem_cons

@[simp] theorem printable_append : Printable (cs ++ ds) ↔ Printable cs ∧ Printable ds :=
  List.forall_mem_append

theorem newline_not_mem (printable : Printable cs) : '\n' ∉ cs :=
  fun member => absurd (printable _ member) (by decide)

/-! ### Numbers -/

theorem printable_of_number (number : ∀ c ∈ cs, isNumberChar c = true) : Printable cs := by
  intro c member
  have listed := number c member
  unfold isNumberChar at listed
  rw [Bool.or_eq_true] at listed
  rcases listed with digit | sign
  · have code := Char.isDigit_iff_toNat.mp digit
    exact Nat.le_trans (by decide) code.1
  · simp at sign
    rcases sign with rfl | rfl | rfl | rfl | rfl <;> decide

theorem isNumberChar_signText (d : Decimal) : ∀ c ∈ d.signText, isNumberChar c = true := by
  unfold Decimal.signText
  split <;> simp [isNumberChar]

theorem printable_positional (d : Decimal) : Printable d.positional := by
  obtain ⟨body, k, spelled, spells⟩ := d.exists_positional
  rw [spelled]
  exact printable_of_number (List.forall_mem_append.mpr ⟨isNumberChar_signText d, spells.decimal.isNumberChar⟩)

theorem printable_mantissa (d : Decimal) : Printable d.mantissa := by
  obtain ⟨body, spelled, spells⟩ := d.exists_mantissa
  rw [spelled]
  exact printable_of_number (List.forall_mem_append.mpr ⟨isNumberChar_signText d, spells.decimal.isNumberChar⟩)

theorem printable_plain (n : Int) : Printable (Text.plain n) := by
  have digits : Printable (Nat.toDigits 10 n.natAbs) := 
    printable_of_number (IsDigits.isNumberChar (isDigits_toDigits n.natAbs))
  rcases Int.lt_or_le n 0 with negative | nonneg
  · rw [plain_of_neg negative, printable_cons]
    exact ⟨by decide, digits⟩
  · rw [plain_of_nonneg nonneg]
    exact digits

theorem printable_writeDecimal (d : Decimal) : Printable (writeDecimal d) := by
  have positional := printable_positional d
  unfold writeDecimal
  split
  · exact printable_append.mpr ⟨positional, by decide⟩
  · split
    · exact positional
    · exact printable_append.mpr ⟨printable_mantissa d, printable_cons.mpr ⟨by decide, printable_plain _⟩⟩

theorem printable_writeFloat (x : Float) : Printable (writeFloat x) := by
  unfold writeFloat
  split
  · exact printable_writeDecimal _
  · decide

/-! ### Strings -/

theorem printable_hexDigit (n : Nat) : 32 ≤ (hexDigit n).toNat := by
  have all : ∀ k < 16, 32 ≤ (Nat.digitChar k).toNat := by decide
  exact all (n % 16) (Nat.mod_lt n (by decide))

theorem printable_escapeChar (c : Char) : Printable (escapeChar c) := by
  unfold escapeChar
  split
  -- the characters with an escape of their own
  iterate 7 decide
  split
  · simp [printable_hexDigit]
  · rename_i above
    have code : ¬c.toNat < 32 := above
    exact printable_cons.mpr ⟨Nat.le_of_not_lt code, printable_nil⟩

theorem printable_writeString (s : String) : Printable (writeString s) := by
  unfold writeString
  rw [printable_append, printable_cons]
  refine ⟨⟨by decide, ?_⟩, by decide⟩
  intro c member
  obtain ⟨c', -, escaped⟩ := List.mem_flatMap.mp member
  exact printable_escapeChar c' c escaped

/-! ### Values -/

theorem printable_commaSeparated (printable : ∀ cs ∈ pieces, Printable cs) : Printable (commaSeparated pieces) := by
  fun_induction commaSeparated pieces with
  | case1 => exact printable_nil
  | case2 cs => exact printable cs List.mem_cons_self
  | case3 cs rest several ih =>
    rw [List.forall_mem_cons] at printable
    exact printable_append.mpr ⟨printable.1, printable_cons.mpr ⟨by decide, ih printable.2⟩⟩

mutual

theorem printable_write : ∀ v : Json, Printable v.write
  | .null => by decide
  | .bool true => by decide
  | .bool false => by decide
  | .integer n => by
    rw [write]
    exact printable_plain n
  | .number x => by
    rw [write]
    exact printable_writeFloat x
  | .string s => by
    rw [write]
    exact printable_writeString s
  | .array elements => by
    have inside := printable_commaSeparated (printable_writeElements elements)
    rw [write, printable_append, printable_cons]
    exact ⟨⟨by decide, inside⟩, by decide⟩
  | .object fields => by
    have inside := printable_commaSeparated (printable_writeFields fields)
    rw [write, printable_append, printable_cons]
    exact ⟨⟨by decide, inside⟩, by decide⟩

theorem printable_writeElements : ∀ vs : List Json, ∀ cs ∈ writeElements vs, Printable cs
  | [] => nofun
  | v :: vs => by
    rw [writeElements, List.forall_mem_cons]
    exact ⟨printable_write v, printable_writeElements vs⟩

theorem printable_writeFields : ∀ fields : List (String × Json), ∀ cs ∈ writeFields fields, Printable cs
  | [] => nofun
  | (key, v) :: fields => by
    rw [writeFields, List.forall_mem_cons, printable_append, printable_cons]
    exact ⟨⟨printable_writeString key, by decide, printable_write v⟩, printable_writeFields fields⟩

end

end Metrology.Json
