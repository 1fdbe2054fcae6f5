import Mathlib.Data.List.Induction
import Mathlib.Data.List.Nodup
import Metrology.Registry.Builtin
import Metrology.Proofs.Factor
import Metrology.Proofs.Outcome
import Metrology.Proofs.Registry.Lookup

/-!
Registries as registration leaves them. `Indexed` says that symbols are distinct, that the units are
numbered from one and that both tables agree with the list of units. Every `Reachable` registry is
`Indexed`, and a `run` of commands, refused ones among them, stays with the `Reachable`.
-/

namespace Metrology.Registry
open Outcome

variable {α : Type} {r r' : Registry α} {u v : BaseUnit α}

/-- The registries that registration and rebuilding lead to. -/
inductive Reachable [Scalar α] : Registry α → Prop where
  | empty : Reachable empty
  | build {r : Registry α} : build = .ok r → Reachable r
  | register {r r' : Registry α} {u : BaseUnit α} : Reachable r → r.register u = .ok r' → Reachable r'
  | rebuild {r r' : Registry α} : Reachable r → r.rebuild = .ok r' → Reachable r'

/-- What `insert` keeps up. -/
structure Numbered (r : Registry α) : Prop where
  distinct : (r.units.map (·.symbol)).Nodup
  orders : r.units.map (·.order) = List.range' 1 r.size
  positions : ∀ symbol : String, r.positions[symbol]? = r.units.findIdx? (·.symbol = symbol)

structure Indexed (r : Registry α) : Prop extends Numbered r where
  readings : r.readings = readingsOf r.units

/-! ### Insertion -/

def extended (r : Registry α) (u : BaseUnit α) : Registry α :=
  { r with
    units := r.units ++ [{ u with order := nextOrder r.units }]
    positions := r.positions.insert u.symbol r.size }

theorem insert_ok_iff :
    r.insert u = .ok r' ↔ r.positions.contains u.symbol = false ∧ r' = r.extended u := by
  unfold insert
  split
  · rename_i taken
    simp [taken]
  · rename_i free
    rw [Bool.not_eq_true] at free
    simp only [free, true_and, Except.ok.injEq]
    exact eq_comm

theorem contains_positions (numbered : r.Numbered) (symbol : String) :
    r.positions.contains symbol = true ↔ symbol ∈ r.units.map (·.symbol) := by
  rw [Std.HashMap.contains_eq_isSome_getElem?, numbered.positions, List.findIdx?_isSome,
    List.any_eq_true, List.mem_map]
  simp only [decide_eq_true_eq]

theorem foldl_max_range' (n : Nat) : (List.range' 1 n).foldl Nat.max 0 = n := by
  induction n with
  | zero => rfl
  | succ n ih =>
    rw [List.range'_1_concat, List.foldl_append, ih]
    simp only [List.foldl_cons, List.foldl_nil]
    show Nat.max n (1 + n) = n + 1
    rw [Nat.add_comm 1 n]
    exact Nat.max_eq_right (Nat.le_succ n)

theorem nextOrder_eq (numbered : r.Numbered) : nextOrder r.units = r.size + 1 := by
  rw [nextOrder, numbered.orders, foldl_max_range']

theorem insert_numbered (numbered : r.Numbered) (h : r.insert u = .ok r') : r'.Numbered := by
  obtain ⟨free, rfl⟩ := insert_ok_iff.mp h
  have fresh : u.symbol ∉ r.units.map (·.symbol) := by
    rw [← contains_positions numbered, free]
    exact Bool.false_ne_true
  unfold extended
  refine ⟨?_, ?_, ?_⟩
  · rw [List.map_append, List.nodup_append]
    refine ⟨numbered.distinct, by simp, ?_⟩
    intro a old b new same
    obtain rfl : b = u.symbol := by simpa using new
    exact fresh (same ▸ old)
  · rw [List.map_append, numbered.orders, nextOrder_eq numbered]
    simp only [size, List.length_append, List.length_singleton, List.range'_1_concat,
      List.map_cons, List.map_nil, Nat.add_comm]
  · intro symbol
    rw [Std.HashMap.getElem?_insert, List.findIdx?_append, numbered.positions]
    by_cases same : u.symbol = symbol
    · subst same
      have absent : r.units.findIdx? (·.symbol = u.symbol) = none := by
        rw [List.findIdx?_eq_none_iff]
        intro v member
        exact decide_eq_false fun equal => fresh (List.mem_map.mpr ⟨v, member, equal⟩)
      simp [absent, size]
    · simp [same]

theorem empty_indexed : (empty : Registry α).Indexed :=
  ⟨⟨List.nodup_nil, rfl, fun _ => by simp [empty]⟩, rfl⟩

theorem reindex_indexed (numbered : r.Numbered) : r.reindex.Indexed :=
  ⟨⟨numbered.distinct, numbered.orders, numbered.positions⟩, rfl⟩

theorem register_indexed (indexed : r.Indexed) (h : r.register u = .ok r') : r'.Indexed := by
  obtain ⟨inserted, added, rfl⟩ := map_ok h
  exact reindex_indexed (insert_numbered indexed.toNumbered added)

/-! ### Whole tables -/

theorem foldlM_insert_numbered {units : List (BaseUnit α)} (numbered : r.Numbered)
    (h : units.foldlM insert r = .ok r') : r'.Numbered := by
  induction units generalizing r with
  | nil =>
    rw [pure_ok h]
    exact numbered
  | cons u us ih =>
    rw [List.foldlM_cons] at h
    obtain ⟨next, inserted, h⟩ := bind_ok h
    exact ih (insert_numbered numbered inserted) h

theorem ofUnits_indexed {units : List (BaseUnit α)} (h : ofUnits units = .ok r) : r.Indexed := by
  obtain ⟨_, loaded, rfl⟩ := map_ok h
  exact reindex_indexed (foldlM_insert_numbered empty_indexed.toNumbered loaded)

theorem Reachable.indexed [Scalar α] (reachable : r.Reachable) : r.Indexed := by
  induction reachable with
  | empty => exact empty_indexed
  | build h => exact ofUnits_indexed h
  | register _ h ih => exact register_indexed ih h
  | rebuild _ h _ => exact ofUnits_indexed h

/-- The units of a table with the numbers that insertion gives them. -/
def numbered (units : List (BaseUnit α)) : List (BaseUnit α) :=
  units.mapIdx fun i u => { u with order := i + 1 }

theorem map_symbol_numbered (units : List (BaseUnit α)) :
    (numbered units).map (·.symbol) = units.map (·.symbol) :=
  List.ext_getElem (by simp [numbered]) (by simp [numbered])

theorem mem_numbered {units : List (BaseUnit α)} {i : Nat} (h : units[i]? = some u) :
    { u with order := i + 1 } ∈ numbered units := by
  refine List.mem_of_getElem? (i := i) ?_
  rw [numbered, List.getElem?_mapIdx, h]
  rfl

theorem exists_of_mem_numbered {units : List (BaseUnit α)} (h : u ∈ numbered units) :
    ∃ v ∈ units, u = { v with order := u.order } := by
  obtain ⟨i, bound, rfl⟩ := List.mem_mapIdx.mp h
  exact ⟨units[i], List.getElem_mem bound, rfl⟩

theorem foldlM_insert_ok {units : List (BaseUnit α)} (distinct : (units.map (·.symbol)).Nodup) :
    ∃ r, units.foldlM insert empty = .ok r ∧ r.units = numbered units := by
  induction units using List.reverseRecOn with
  | nil => exact ⟨empty, rfl, rfl⟩
  | append_singleton us u ih =>
    rw [List.map_append, List.nodup_append] at distinct
    obtain ⟨r, loaded, units⟩ := ih distinct.1
    have keeps : r.Numbered := foldlM_insert_numbered empty_indexed.toNumbered loaded
    have free : r.positions.contains u.symbol = false := by
      rw [← Bool.not_eq_true, contains_positions keeps, units, map_symbol_numbered]
      exact fun taken => distinct.2.2 _ taken _ (by simp) rfl
    refine ⟨r.extended u, ?_, ?_⟩
    · rw [List.foldlM_append, loaded]
      exact bind_ok_iff.mpr ⟨_, rfl, bind_ok_iff.mpr ⟨_, insert_ok_iff.mpr ⟨free, rfl⟩, rfl⟩⟩
    · have size : r.size = us.length := by rw [Registry.size, units, numbered, List.length_mapIdx]
      rw [extended, nextOrder_eq keeps, size, units]
      simp [numbered, List.mapIdx_append]

theorem ofUnits_ok {units : List (BaseUnit α)} (distinct : (units.map (·.symbol)).Nodup) :
    ∃ r, ofUnits units = .ok r ∧ r.units = numbered units := by
  obtain ⟨r, loaded, same⟩ := foldlM_insert_ok distinct
  exact ⟨r.reindex, by rw [ofUnits, loaded]; rfl, same⟩

/-! ### Histories -/

/-- What can be asked of a registry that changes it. -/
inductive Command (α : Type) where
  | register (u : BaseUnit α)
  | rebuild

section History

variable [Scalar α]

def Command.apply (r : Registry α) : Command α → Except Error (Registry α)
  | register u => r.register u
  | rebuild => r.rebuild

/-- A command that is refused leaves the registry as it is. -/
def execute (r : Registry α) (command : Command α) : Registry α :=
  match command.apply r with
  | .ok r' => r'
  | .error _ => r

def run (r : Registry α) (commands : List (Command α)) : Registry α :=
  commands.foldl execute r

theorem Reachable.execute (reachable : r.Reachable) (command : Command α) : (r.execute command).Reachable := by
  unfold Registry.execute
  split
  · rename_i r' done
    cases command with
    | register u => exact .register reachable done
    | rebuild => exact .rebuild reachable done
  · exact reachable

theorem Reachable.run (reachable : r.Reachable) (commands : List (Command α)) : (r.run commands).Reachable := by
  induction commands generalizing r with
  | nil => exact reachable
  | cons command commands ih => exact ih (reachable.execute command)

end History

/-! ### What an indexed registry answers -/

theorem Indexed.getElem?_readings (indexed : r.Indexed) (token : String) :
    r.readings[token]? = reading? r.units token := by
  rw [indexed.readings, getElem?_readingsOf indexed.distinct]

theorem Numbered.eq_of_symbol (numbered : r.Numbered) (hu : u ∈ r.units) (hv : v ∈ r.units)
    (same : u.symbol = v.symbol) : u = v :=
  List.inj_on_of_nodup_map numbered.distinct hu hv same

theorem Numbered.eq_of_order (numbered : r.Numbered) (hu : u ∈ r.units) (hv : v ∈ r.units)
    (same : u.order = v.order) : u = v :=
  List.inj_on_of_nodup_map (numbered.orders ▸ List.nodup_range') hu hv same

theorem Numbered.pairwise_order (numbered : r.Numbered) :
    r.units.Pairwise fun u v => u.order < v.order := by
  have ascending : (r.units.map (·.order)).Pairwise (· < ·) := by
    rw [numbered.orders]
    exact List.pairwise_lt_range'
  exact List.pairwise_map.mp ascending

/-! ### Factors on the units of a registry -/

/-- The factors stand on units of the registry. -/
def Covers (r : Registry α) (us : List (Factor α)) : Prop :=
  ∀ u ∈ us, u.base ∈ r.units

theorem covers_nil : r.Covers [] := fun _ member => absurd member List.not_mem_nil

theorem covers_append {us vs : List (Factor α)} :
    r.Covers (us ++ vs) ↔ r.Covers us ∧ r.Covers vs :=
  List.forall_mem_append

theorem covers_cons {u : Factor α} {us : List (Factor α)} :
    r.Covers (u :: us) ↔ u.base ∈ r.units ∧ r.Covers us :=
  List.forall_mem_cons

theorem covers_singleton {u : Factor α} : r.Covers [u] ↔ u.base ∈ r.units :=
  List.forall_mem_singleton

theorem base_eq {u v : Factor α} (numbered : r.Numbered) (hu : u.base ∈ r.units) (hv : v.base ∈ r.units)
    (same : u.sameBase v = true) : u.base = v.base :=
  numbered.eq_of_symbol hu hv (Factor.sameBase_iff.mp same)

end Metrology.Registry
