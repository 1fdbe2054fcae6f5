import Metrology.Factor
import Std.Data.HashMap

/-!
# Registries

A registry holds base units in the order of registration. `Registry.resolve` reads a token as a
unit with an optional prefix: a bare symbol wins over every prefixed spelling, and of those the
first in registration order, then in the order of the unit's prefixes. `Registry.clashes` lists
the spellings that more than one reading competes for.
-/

namespace Metrology

/-- What a token stands for. -/
structure Reading (α : Type) where
  base : BaseUnit α
  pre : Option (Prefix α)

structure Registry (α : Type) where
  units : List (BaseUnit α) := []
  /-- The position of each bare symbol in `units`. -/
  positions : Std.HashMap String Nat := ∅
  /-- The reading of each token. -/
  readings : Std.HashMap String (Reading α) := ∅

namespace Registry

variable {α : Type} [Scalar α]

def empty : Registry α := {}

def size (r : Registry α) : Nat :=
  r.units.length

def isEmpty (r : Registry α) : Bool :=
  r.units.isEmpty

def nextOrder (units : List (BaseUnit α)) : Nat :=
  (units.map (·.order)).foldl Nat.max 0 + 1

/-- Adds a unit without renewing the readings. -/
def insert (r : Registry α) (u : BaseUnit α) : Except Error (Registry α) :=
  if r.positions.contains u.symbol then .error (.duplicateSymbol u.symbol)
  else .ok { r with
    units := r.units ++ [{ u with order := nextOrder r.units }]
    positions := r.positions.insert u.symbol r.size }

/-- The readings of all tokens: bare symbols first, prefixed spellings where none is taken. -/
def readingsOf (units : List (BaseUnit α)) : Std.HashMap String (Reading α) :=
  let bare := units.foldl (fun table u => table.insert u.symbol ⟨u, none⟩) ∅
  units.foldl (fun table u =>
    u.prefixes.foldl (fun table p => table.insertIfNew (p.symbol ++ u.symbol) ⟨u, some p⟩) table)
    bare

def reindex (r : Registry α) : Registry α :=
  { r with readings := readingsOf r.units }

/-- Adds a unit at the end; refused when its symbol is taken. -/
def register (r : Registry α) (u : BaseUnit α) : Except Error (Registry α) :=
  reindex <$> r.insert u

/-- The registry with these units, in this order. -/
def ofUnits (units : List (BaseUnit α)) : Except Error (Registry α) :=
  reindex <$> units.foldlM insert empty

def get? (r : Registry α) (symbol : String) : Option (BaseUnit α) :=
  r.positions[symbol]?.bind (r.units[·]?)

/-- The unit and prefix that a token spells, with the exponent `e`. -/
def resolve (r : Registry α) (token : String) (e : Exponent) : Except Error (Factor α) :=
  match r.readings[token]? with
  | some reading => .ok ⟨reading.base, reading.pre, e⟩
  | none => .error (.unknownUnit token)

/-- The first element of each run of equal neighbours. -/
def repeated : List String → List String
  | s :: t :: rest =>
    if s = t then s :: (repeated (t :: rest)).dropWhile (· = s) else repeated (t :: rest)
  | _ => []

/-- The spellings that occur more than once, by code point. -/
def clashes (r : Registry α) : List String :=
  repeated ((r.units.flatMap BaseUnit.spellings).mergeSort fun s t => decide (s ≤ t))

end Registry

end Metrology
