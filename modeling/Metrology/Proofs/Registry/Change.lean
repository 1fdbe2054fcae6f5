import Metrology.Proofs.Registry.Builtin
import Metrology.Proofs.Registry.Resolution

/-!
Registries that are changed in place. A `Change` writes the parts of its registry one after the other, and
where it is refused it leaves behind what has been written by then. `register_eq` and `rebuild_eq` say that
both changes are all or nothing. Main statement: `numbered_after`, what holds of a registry after any changes.
-/

namespace Metrology.Registry
open Outcome

variable {α : Type} {r r' start : Registry α} {u : BaseUnit α}

/-- Changes in place, with what they leave behind when they succeed and when they are refused. -/
abbrev Change (α : Type) : Type → Type := EStateM Error (Registry α)

namespace Change

/-- Enters `u` under the next number; the symbol is looked up before anything is written. -/
def insert (u : BaseUnit α) : Change α PUnit := do
  if (← get).positions.contains u.symbol then throw (.duplicateSymbol u.symbol)
  let entry := { u with order := nextOrder (← get).units }
  modify fun r => { r with positions := r.positions.insert entry.symbol r.size }
  modify fun r => { r with units := r.units ++ [entry] }

def reindex : Change α PUnit :=
  modify fun r => { r with readings := readingsOf r.units }

def register (u : BaseUnit α) : Change α PUnit := do
  insert u
  reindex

def clear : Change α PUnit := do
  modify fun r => { r with units := [] }
  modify fun r => { r with positions := ∅ }
  modify fun r => { r with readings := ∅ }

def rebuild [Scalar α] : Change α PUnit := do
  clear
  Builtin.units.forM insert
  reindex

/-- The change to what `f` returns, or none at all. -/
def atomic (f : Registry α → Except Error (Registry α)) : Change α PUnit := fun r =>
  match f r with
  | .ok r' => .ok ⟨⟩ r'
  | .error e => .error e r

/-- The registry that a change leaves behind. -/
def left (change : Change α PUnit) (r : Registry α) : Registry α :=
  match change r with
  | .ok _ r' => r'
  | .error _ r' => r'

/-! ### All or nothing -/

variable {f : Registry α → Except Error (Registry α)} {change next : Change α PUnit} {e : Error}

theorem atomic_ok (h : f r = .ok r') : atomic f r = .ok ⟨⟩ r' := by
  rw [atomic, h]

theorem atomic_error (h : f r = .error e) : atomic f r = .error e r := by
  rw [atomic, h]

theorem then_ok (h : change r = .ok ⟨⟩ r') : (do change; next) r = next r' := by
  show EStateM.bind change (fun _ => next) r = next r'
  rw [EStateM.bind, h]

theorem then_error (h : change r = .error e r') : (do change; next) r = .error e r' := by
  show EStateM.bind change (fun _ => next) r = .error e r'
  rw [EStateM.bind, h]

theorem insert_eq (u : BaseUnit α) : insert u = atomic (·.insert u) := by
  funext r
  by_cases taken : r.positions.contains u.symbol = true
  · have refused : r.insert u = .error (.duplicateSymbol u.symbol) := by rw [Registry.insert, if_pos taken]
    rw [atomic_error refused]
    change (ite (r.positions.contains u.symbol = true) _ _ : Change α PUnit) r = _
    rw [if_pos taken]
    rfl
  · have entered : r.insert u = .ok (r.extended u) := by rw [Registry.insert, if_neg taken]; rfl
    rw [atomic_ok entered]
    change (ite (r.positions.contains u.symbol = true) _ _ : Change α PUnit) r = _
    rw [if_neg taken]
    rfl

theorem register_eq (u : BaseUnit α) : register u = atomic (·.register u) := by
  funext r
  unfold register
  cases inserted : r.insert u with
  | ok r' =>
    have registered : r.register u = .ok r'.reindex := by rw [Registry.register, inserted]; rfl
    rw [insert_eq, then_ok (atomic_ok inserted), atomic_ok registered]
    rfl
  | error e =>
    have refused : r.register u = .error e := by rw [Registry.register, inserted]; rfl
    rw [insert_eq, then_error (atomic_error inserted), atomic_error refused]

theorem forM_insert {units : List (BaseUnit α)} (h : units.foldlM Registry.insert r = .ok r') :
    units.forM insert r = .ok ⟨⟩ r' := by
  induction units generalizing r with
  | nil =>
    rw [pure_ok h]
    rfl
  | cons u us ih =>
    rw [List.foldlM_cons] at h
    obtain ⟨next, inserted, h⟩ := bind_ok h
    rw [List.forM_eq_forM, List.forM_cons, insert_eq, then_ok (atomic_ok inserted)]
    exact ih h

/-- What was registered before has no part in a rebuilt registry. -/
theorem rebuild_ok [Scalar α] (r : Registry α) : rebuild r = .ok ⟨⟩ (builtin α) := by
  obtain ⟨loaded, inserted, indexed⟩ := map_ok (build_builtin (α := α)).1
  have cleared : clear r = .ok ⟨⟩ empty := rfl
  unfold rebuild
  rw [then_ok cleared, then_ok (forM_insert inserted), ← indexed]
  rfl

/-- Rebuilding is all or nothing because the built-in symbols are distinct. -/
theorem rebuild_eq [Scalar α] : (rebuild : Change α PUnit) = atomic (·.rebuild) := by
  funext r
  rw [rebuild_ok, atomic_ok (f := (·.rebuild)) build_builtin.1]

theorem left_atomic (f : Registry α → Except Error (Registry α)) (r : Registry α) :
    (atomic f).left r = ((f r).toOption).getD r := by
  unfold left atomic
  cases f r <;> rfl

end Change

/-! ### What registration answers -/

theorem Numbered.positions_iff (numbered : r.Numbered) {symbol : String} {i : Nat} :
    r.positions[symbol]? = some i ↔ r.units[i]?.map (·.symbol) = some symbol := by
  rw [numbered.positions, List.findIdx?_eq_some_iff_getElem, ← List.getElem?_map]
  simp only [decide_eq_true_eq]
  constructor
  · rintro ⟨bound, same, -⟩
    rw [List.getElem?_map, List.getElem?_eq_getElem bound, ← same]
    rfl
  · intro here
    obtain ⟨bound, same⟩ := List.getElem?_eq_some_iff.mp here
    rw [List.length_map] at bound
    rw [List.getElem_map] at same
    refine ⟨bound, same, fun j before earlier => ?_⟩
    -- no symbol stands at two places
    have listed : (r.units.map (·.symbol))[j]? = (r.units.map (·.symbol))[i]? := by
      rw [List.getElem?_map, List.getElem?_map, List.getElem?_eq_getElem (by omega),
        List.getElem?_eq_getElem bound, Option.map_some, Option.map_some, earlier, same]
    have place : j = i := (List.getElem?_inj (by rw [List.length_map]; omega) numbered.distinct).mp listed
    exact absurd place before.ne

theorem register_taken (numbered : r.Numbered) (taken : u.symbol ∈ r.units.map (·.symbol)) :
    r.register u = .error (.duplicateSymbol u.symbol) := by
  rw [register, insert, if_pos ((contains_positions numbered u.symbol).mpr taken)]
  rfl

theorem register_free (numbered : r.Numbered) (free : u.symbol ∉ r.units.map (·.symbol)) :
    ∃ r', r.register u = .ok r' ∧ r'.units = r.units ++ [{ u with order := r.size + 1 }] := by
  have absent : r.positions.contains u.symbol = false := by
    rw [← Bool.not_eq_true, contains_positions numbered]
    exact free
  have inserted : r.insert u = .ok (r.extended u) := insert_ok_iff.mpr ⟨absent, rfl⟩
  refine ⟨(r.extended u).reindex, by rw [register, inserted]; rfl, ?_⟩
  show r.units ++ [{ u with order := nextOrder r.units }] = _
  rw [nextOrder_eq numbered]

theorem register_ok (numbered : r.Numbered) (added : r.register u = .ok r') :
    u.symbol ∉ r.units.map (·.symbol) ∧ r'.units = r.units ++ [{ u with order := r.size + 1 }] := by
  by_cases taken : u.symbol ∈ r.units.map (·.symbol)
  · rw [register_taken numbered taken] at added
    cases added
  · obtain ⟨next, registered, units⟩ := register_free numbered taken
    rw [registered] at added
    cases added
    exact ⟨taken, units⟩

/-! ### Histories in place -/

section History

variable [Scalar α]

def Command.change : Command α → Change α PUnit
  | register u => .register u
  | rebuild => .rebuild

theorem Command.change_eq (command : Command α) : command.change = .atomic (command.apply ·) := by
  cases command with
  | register u => exact Change.register_eq u
  | rebuild => exact Change.rebuild_eq

/-- The registry that changes leave behind one after the other, refused ones among them. -/
def after (start : Registry α) (commands : List (Command α)) : Registry α :=
  commands.foldl (fun r command => command.change.left r) start

theorem left_change (r : Registry α) (command : Command α) : command.change.left r = r.execute command := by
  rw [command.change_eq, Change.left_atomic, execute]
  cases command.apply r <;> rfl

theorem after_eq_run (start : Registry α) (commands : List (Command α)) :
    start.after commands = start.run commands := by
  simp only [after, run, left_change]

/-- After any changes in place the symbols are distinct, the units are numbered from one in the order of
registration, and the map of bare symbols has the position of each and no other key. A taken symbol is refused
and nothing has changed; any other is added at the end; and rebuilding gives the registry that is built afresh. -/
theorem numbered_after (origin : start = empty ∨ build = .ok start) (commands : List (Command α)) :
    let r := start.after commands
    r = start.run commands ∧
      (r.units.map (·.symbol)).Nodup ∧
      r.units.map (·.order) = List.range' 1 r.size ∧
      (∀ (symbol : String) (i : Nat),
        r.positions[symbol]? = some i ↔ r.units[i]?.map (·.symbol) = some symbol) ∧
      (∀ u : BaseUnit α, u.symbol ∈ r.units.map (·.symbol) →
        r.register u = .error (.duplicateSymbol u.symbol) ∧
          Change.register u r = .error (.duplicateSymbol u.symbol) r) ∧
      (∀ u : BaseUnit α, u.symbol ∉ r.units.map (·.symbol) →
        ∃ r', r.register u = .ok r' ∧ Change.register u r = .ok ⟨⟩ r' ∧
          r'.units = r.units ++ [{ u with order := r.size + 1 }]) ∧
      ∃ fresh, build = .ok fresh ∧ r.rebuild = .ok fresh ∧ Change.rebuild r = .ok ⟨⟩ fresh := by
  intro r
  have same : r = start.run commands := after_eq_run start commands
  have reachable : start.Reachable := by
    rcases origin with rfl | built
    · exact .empty
    · exact .build built
  have numbered : r.Numbered := by
    rw [same]
    exact (reachable.run commands).indexed.toNumbered
  refine ⟨same, numbered.distinct, numbered.orders, fun _ _ => numbered.positions_iff, ?_, ?_, ?_⟩
  · intro u taken
    have refused := register_taken numbered taken
    refine ⟨refused, ?_⟩
    rw [Change.register_eq]
    exact Change.atomic_error refused
  · intro u free
    obtain ⟨r', registered, units⟩ := register_free numbered free
    refine ⟨r', registered, ?_, units⟩
    rw [Change.register_eq]
    exact Change.atomic_ok registered
  · exact ⟨builtin α, build_builtin.1, build_builtin.1, Change.rebuild_ok r⟩

theorem numbered_after_ambiguous :
    let r := (empty : Registry Float).after ambiguous
    r.units.map (·.symbol) = ["am", "m", "dm"] ∧
      r.positions["dm"]? = some 2 ∧
      Change.register (accepting "m" []) r = .error (.duplicateSymbol "m") r ∧
      (∃ r', Change.register (accepting "dam" []) r = .ok ⟨⟩ r' ∧
        r'.units.map (·.order) = [1, 2, 3, 4]) ∧
      ∃ fresh, build = .ok fresh ∧ Change.rebuild r = .ok ⟨⟩ fresh := by
  intro r
  obtain ⟨same, -, orders, positions, taken, free, fresh, built, -, rebuilt⟩ :=
    numbered_after (α := Float) (.inl rfl) ambiguous
  have symbols : r.units.map (·.symbol) = ["am", "m", "dm"] := by
    show ((empty : Registry Float).after ambiguous).units.map (·.symbol) = _
    rw [same, units_ambiguous]
    rfl
  have listed : ∀ i : Nat, r.units[i]?.map (·.symbol) = ["am", "m", "dm"][i]? := by
    intro i
    rw [← List.getElem?_map, symbols]
  refine ⟨symbols, (positions "dm" 2).mpr (listed 2), (taken _ ?_).2, ?_, fresh, built, rebuilt⟩
  · show "m" ∈ r.units.map (·.symbol)
    rw [symbols]
    decide
  · obtain ⟨r', -, registered, units⟩ := free (accepting "dam" []) (by
      show "dam" ∉ r.units.map (·.symbol)
      rw [symbols]
      decide)
    refine ⟨r', registered, ?_⟩
    have size : r.size = 3 := by
      rw [size, ← List.length_map (f := (·.symbol)), symbols]
      rfl
    rw [units, List.map_append, orders]
    show List.range' 1 r.size ++ [r.size + 1] = _
    rw [size]
    rfl

end History

end Metrology.Registry
