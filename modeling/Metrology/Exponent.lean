import Metrology.Text.Integer

/-!
# Exponents

The power of a unit is a 32-bit integer. `Exponent.ofInt?` is the only way in from the integers,
so arithmetic that leaves the range is refused and never wraps.
-/

namespace Metrology

structure Exponent where
  val : Int
  min_le : -2147483648 ≤ val
  le_max : val ≤ 2147483647
  deriving DecidableEq

namespace Exponent

def ofInt? (n : Int) : Option Exponent :=
  if h : -2147483648 ≤ n ∧ n ≤ 2147483647 then some ⟨n, h.1, h.2⟩ else none

theorem ofInt?_eq_some_iff {n : Int} {e : Exponent} : ofInt? n = some e ↔ e.val = n := by
  unfold ofInt?
  split <;> rename_i h
  · rw [Option.some_inj]
    exact ⟨fun he => he ▸ rfl, fun he => by cases e; cases he; rfl⟩
  · exact ⟨nofun, fun he => absurd ⟨he ▸ e.min_le, he ▸ e.le_max⟩ h⟩

instance : OfNat Exponent 0 := ⟨⟨0, by decide, by decide⟩⟩
instance : OfNat Exponent 1 := ⟨⟨1, by decide, by decide⟩⟩

def add? (a b : Exponent) : Option Exponent := ofInt? (a.val + b.val)

def mul? (a b : Exponent) : Option Exponent := ofInt? (a.val * b.val)

def neg? (a : Exponent) : Option Exponent := ofInt? (-a.val)

/-- An integer text within the range. -/
def ofChars? (cs : List Char) : Option Exponent :=
  (Text.readInt? cs).bind ofInt?

end Exponent

end Metrology
