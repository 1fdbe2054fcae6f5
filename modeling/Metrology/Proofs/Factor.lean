import Mathlib.Data.List.Sort
import Metrology.Factor

/-!
Factors: what inverting and raising do to one, and the canonical order. `Factor.sort` is the
insertion sort of the library along `precedes`, so its lemmas apply.
-/

namespace Metrology

variable {α : Type}

namespace Exponent

theorem val_inj {a b : Exponent} : a.val = b.val ↔ a = b := by
  refine ⟨fun same => ?_, fun same => same ▸ rfl⟩
  cases a
  cases b
  cases same
  rfl

theorem bne_zero {e : Exponent} : (e != 0) = true ↔ e.val ≠ 0 := by
  rw [bne_iff_ne, ne_eq, ← val_inj]
  rfl

theorem beq_one {e : Exponent} : (e == 1) = true ↔ e.val = 1 := by
  rw [beq_iff_eq, ← val_inj]
  rfl

theorem add?_eq_some_iff {a b e : Exponent} : a.add? b = some e ↔ e.val = a.val + b.val :=
  ofInt?_eq_some_iff

theorem add?_ok {a b e : Exponent} (h : a.add? b = some e) : e.val = a.val + b.val :=
  add?_eq_some_iff.mp h

theorem add?_comm (a b : Exponent) : a.add? b = b.add? a := by
  rw [add?, add?, Int.add_comm]

def squared : Exponent := (ofInt? 2).get rfl

def reciprocal : Exponent := (ofInt? (-1)).get rfl

def least : Exponent := (ofInt? (-2147483648)).get rfl

@[simp] theorem val_squared : squared.val = 2 := rfl

@[simp] theorem val_reciprocal : reciprocal.val = -1 := rfl

end Exponent

namespace Factor

variable {u v w : Factor α} {us vs : List (Factor α)}

theorem sameBase_iff : u.sameBase v = true ↔ u.base.symbol = v.base.symbol :=
  beq_iff_eq

theorem samePrefix_iff : u.samePrefix v = true ↔ u.prefixSymbol? = v.prefixSymbol? :=
  beq_iff_eq

theorem beq_iff :
    (u == v) = true ↔
      u.base.symbol = v.base.symbol ∧ u.prefixSymbol? = v.prefixSymbol? ∧ u.exponent = v.exponent := by
  show (u.sameBase v && u.samePrefix v && u.exponent == v.exponent) = true ↔ _
  rw [Bool.and_eq_true, Bool.and_eq_true, sameBase_iff, samePrefix_iff, beq_iff_eq, and_assoc]

instance : ReflBEq (Factor α) :=
  ⟨beq_iff.mpr ⟨rfl, rfl, rfl⟩⟩

/-- Base, prefix and exponent as an integer. -/
def parts (u : Factor α) : BaseUnit α × Option (Prefix α) × Int :=
  (u.base, u.pre, u.exponent.val)

theorem parts_injective : Function.Injective (parts (α := α)) := by
  rintro ⟨base, pre, exponent⟩ ⟨base', pre', exponent'⟩ same
  simp only [parts, Prod.mk.injEq, Exponent.val_inj] at same
  obtain ⟨rfl, rfl, rfl⟩ := same
  rfl

/-! ### Exponents -/

theorem invert_ok (h : u.invert = .ok v) :
    v.base = u.base ∧ v.pre = u.pre ∧ v.exponent.val = -u.exponent.val := by
  unfold invert withExponent? at h
  split at h
  · rename_i e negated
    cases h
    exact ⟨rfl, rfl, Exponent.ofInt?_eq_some_iff.mp negated⟩
  · cases h

theorem raise_ok {n : Exponent} (h : u.raise n = .ok v) :
    v.base = u.base ∧ v.pre = u.pre ∧ v.exponent.val = u.exponent.val * n.val := by
  unfold raise withExponent? at h
  split at h
  · rename_i e product
    cases h
    exact ⟨rfl, rfl, Exponent.ofInt?_eq_some_iff.mp product⟩
  · cases h

theorem raise_of_val {n e : Exponent} (product : e.val = u.exponent.val * n.val) :
    u.raise n = .ok { u with exponent := e } := by
  rw [raise, Exponent.mul?, Exponent.ofInt?_eq_some_iff.mpr product]
  rfl

/-- Inverting is raising to the power of minus one, errors included. -/
theorem raise_reciprocal (u : Factor α) : u.raise .reciprocal = u.invert := by
  rw [raise, invert, Exponent.mul?, Exponent.neg?, Exponent.val_reciprocal, Int.mul_neg_one]

/-! ### Canonical order -/

/-- Strict canonical order: the positive exponents first, each group in the order of the registry. -/
def Before (u v : Factor α) : Prop :=
  (0 ≤ u.exponent.val ∧ v.exponent.val < 0) ∨
    ((u.exponent.val < 0 ↔ v.exponent.val < 0) ∧ u.base.order < v.base.order)

theorem precedes_iff : u.precedes v = true ↔
    (0 ≤ u.exponent.val ∧ v.exponent.val < 0) ∨
      ((u.exponent.val < 0 ↔ v.exponent.val < 0) ∧ u.base.order ≤ v.base.order) := by
  unfold precedes
  by_cases hu : u.exponent.val < 0 <;> by_cases hv : v.exponent.val < 0 <;> simp [hu, hv]
  all_goals omega

theorem Before.precedes (h : u.Before v) : u.precedes v = true := by
  rw [precedes_iff]
  exact h.imp id fun ⟨sign, order⟩ => ⟨sign, order.le⟩

theorem insert_eq_orderedInsert (u : Factor α) (us : List (Factor α)) :
    insert u us = us.orderedInsert (fun u v => u.precedes v = true) u := by
  induction us with
  | nil => rfl
  | cons v vs ih => rw [insert, List.orderedInsert_cons, ih]

theorem sort_eq_insertionSort (us : List (Factor α)) :
    sort us = us.insertionSort fun u v => u.precedes v = true := by
  induction us with
  | nil => rfl
  | cons u us ih =>
    rw [List.insertionSort_cons, ← ih, ← insert_eq_orderedInsert]
    rfl

theorem sort_perm (us : List (Factor α)) : (sort us).Perm us := by
  rw [sort_eq_insertionSort]
  exact List.perm_insertionSort _ us

theorem sort_pairwise (us : List (Factor α)) : (sort us).Pairwise fun u v => u.precedes v = true := by
  have total : Std.Total fun u v : Factor α => u.precedes v = true := by
    constructor
    intro u v
    simp only [precedes_iff]
    omega
  have transitive : IsTrans (Factor α) fun u v => u.precedes v = true := by
    constructor
    intro u v w
    simp only [precedes_iff]
    omega
  rw [sort_eq_insertionSort]
  exact List.pairwise_insertionSort _ us

theorem sort_of_ordered {us : List (Factor α)} (ordered : us.Pairwise Before) : sort us = us := by
  rw [sort_eq_insertionSort]
  exact (ordered.imp Before.precedes).insertionSort_eq

theorem sort_sort (us : List (Factor α)) : sort (sort us) = sort us := by
  rw [sort_eq_insertionSort (sort us)]
  exact (sort_pairwise us).insertionSort_eq

/-! ### Factors of one rank -/

/-- Each of the two may stand before the other. -/
def level (u v : Factor α) : Bool :=
  u.precedes v && v.precedes u

theorem level_iff : u.level v = true ↔
    (u.exponent.val < 0 ↔ v.exponent.val < 0) ∧ u.base.order = v.base.order := by
  rw [level, Bool.and_eq_true, precedes_iff, precedes_iff]
  omega

theorem level_self (u : Factor α) : u.level u = true :=
  level_iff.mpr ⟨Iff.rfl, rfl⟩

/-- Factors of the same rank as a third may stand before each other. -/
theorem precedes_of_level (k : Factor α) (hu : k.level u = true) (hv : k.level v = true) :
    u.precedes v = true := by
  rw [level_iff] at hu hv
  rw [precedes_iff]
  omega

theorem filter_insert {p : Factor α → Bool} (tied : ∀ u v, p u = true → p v = true → u.precedes v = true)
    (u : Factor α) (us : List (Factor α)) : (insert u us).filter p = (u :: us).filter p := by
  induction us with
  | nil => rfl
  | cons v vs ih =>
    rw [insert]
    split
    · rfl
    · rename_i after
      -- at most one of the two that change places is kept
      rw [List.filter_cons, ih, List.filter_cons, List.filter_cons, List.filter_cons]
      by_cases hu : p u = true
      · have hv : ¬p v = true := fun hv => after (tied u v hu hv)
        rw [if_neg hv, if_neg hv]
      · rw [if_neg hu, if_neg hu]

/-- Sorting is stable: factors that may stand before each other keep their order. -/
theorem filter_sort {p : Factor α → Bool} (tied : ∀ u v, p u = true → p v = true → u.precedes v = true)
    (us : List (Factor α)) : (sort us).filter p = us.filter p := by
  induction us with
  | nil => rfl
  | cons u us ih =>
    show (insert u (sort us)).filter p = _
    rw [filter_insert tied, List.filter_cons, ih, ← List.filter_cons]

theorem mem_of_levels (same : ∀ k : Factor α, us.filter (k.level ·) = vs.filter (k.level ·)) (member : u ∈ us) :
    u ∈ vs := by
  have kept : u ∈ us.filter (u.level ·) := List.mem_filter.mpr ⟨member, level_self u⟩
  rw [same u] at kept
  exact (List.mem_filter.mp kept).1

/-- Ordered lists are equal when they have the same factors of each rank in the same order. -/
theorem eq_of_levels (hus : us.Pairwise fun u v => u.precedes v = true)
    (hvs : vs.Pairwise fun u v => u.precedes v = true)
    (same : ∀ k : Factor α, us.filter (k.level ·) = vs.filter (k.level ·)) : us = vs := by
  induction us generalizing vs with
  | nil =>
    refine (List.eq_nil_iff_forall_not_mem.mpr fun v member => ?_).symm
    exact List.not_mem_nil (mem_of_levels (fun k => (same k).symm) member)
  | cons u us ih =>
    cases vs with
    | nil => exact absurd (mem_of_levels same List.mem_cons_self) List.not_mem_nil
    | cons v vs =>
      rw [List.pairwise_cons] at hus hvs
      have reflexive : ∀ w : Factor α, w.precedes w = true := fun w => precedes_of_level w (level_self w) (level_self w)
      have forward : u.precedes v = true := by
        rcases List.mem_cons.mp (mem_of_levels (fun k => (same k).symm) List.mem_cons_self) with rfl | behind
        · exact reflexive _
        · exact hus.1 v behind
      have backward : v.precedes u = true := by
        rcases List.mem_cons.mp (mem_of_levels same List.mem_cons_self) with rfl | behind
        · exact reflexive _
        · exact hvs.1 u behind
      have heads := same u
      rw [List.filter_cons_of_pos (level_self u), List.filter_cons_of_pos (by rw [level, forward, backward]; rfl)]
        at heads
      obtain rfl : u = v := (List.cons.inj heads).1
      rw [ih hus.2 hvs.2 fun k => ?_]
      have whole := same k
      rw [List.filter_cons, List.filter_cons] at whole
      split at whole
      · exact (List.cons.inj whole).2
      · exact whole

end Factor

end Metrology
