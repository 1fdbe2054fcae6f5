import Metrology.Proofs.Quantity.TidyForm

/-!
The order in which factors are written. What tidying comes to depends on the totals, the common prefixes and
the prefixes of the bases that have several, and none of these on the order of the list. Inverses and powers
multiply the exponents of all factors and then tidy, so the order has no part in them either. Main
statement: `normalize_perm`.
-/

namespace Metrology.Quantity
open Outcome Registry

variable {α : Type} {us us' vs vs' : List (Factor α)} {u : Factor α} {x : String} {n : Int}

/-! ### What a permutation keeps -/

section Tabled

variable [Scalar α] {r : Registry α} {q q' t t' : Quantity α}

end Tabled

section Exact

variable {e : Registry Rat} {p p' s s' : Quantity Rat} {us us' : List (Factor Rat)}

end Exact

/-! ### Operations that tidy their result -/

/-- What brings a quantity into canonical shape without reducing it. -/
inductive Normalization where
  | tidy
  | inverse
  | pow (n : Exponent)
  deriving DecidableEq

namespace Normalization

variable [Scalar α] {q t : Quantity α}

def apply (q : Quantity α) : Normalization → Except Error (Quantity α)
  | tidy => q.tidy
  | inverse => q.inverse
  | pow n => q.pow n

/-- What the exponents are multiplied by. -/
def factor : Normalization → Int
  | tidy => 1
  | inverse => -1
  | pow n => n.val

/-- What becomes of the amount before the list is tidied. -/
def amount (x : α) : Normalization → α
  | tidy => x
  | inverse => Scalar.one / x
  | pow n => Scalar.pow x n.val

end Normalization

end Metrology.Quantity
