import Metrology.Scalar
import Metrology.Error

/-!
# Prefixes

A prefix multiplies a unit, such as `k` for a thousand. The tables are in the order in which
prefixes are tried; `Prefix.named?` prefers the metric table to the binary one and that to the
currency one.
-/

namespace Metrology

structure Prefix (α : Type) where
  symbol : String
  multiplier : α

namespace Prefix

variable {α : Type} [Scalar α]

/-- Prefixes from their symbols and multipliers. -/
def table (entries : List (String × Float)) : List (Prefix α) :=
  entries.map fun (symbol, multiplier) => ⟨symbol, Scalar.ofFloat multiplier⟩

/-- Metric prefixes, largest first. -/
def metric : List (Prefix α) :=
  table
    [("Q", 1e30), ("R", 1e27), ("Y", 1e24), ("Z", 1e21), ("E", 1e18), ("P", 1e15), ("T", 1e12),
      ("G", 1e9), ("M", 1e6), ("k", 1e3), ("h", 1e2), ("da", 1e1), ("d", 1e-1), ("c", 1e-2),
      ("m", 1e-3), ("µ", 1e-6), ("n", 1e-9), ("p", 1e-12), ("f", 1e-15), ("a", 1e-18),
      ("z", 1e-21), ("y", 1e-24), ("r", 1e-27), ("q", 1e-30)]

/-- Binary prefixes, the powers of 1024. -/
def binary : List (Prefix α) :=
  table
    [("Ki", 1024), ("Mi", 1048576), ("Gi", 1073741824), ("Ti", 1099511627776),
      ("Pi", 1125899906842624), ("Ei", 1152921504606846976), ("Zi", 1180591620717411303424),
      ("Yi", 1208925819614629174706176)]

/-- Prefixes for money alone; `M` and `T` are metric. -/
def currency : List (Prefix α) :=
  table [("K", 1e3), ("B", 1e9)]

/-- The metric prefixes from a thousand upwards. -/
def largeMetric : List (Prefix α) :=
  metric.filter fun p => Scalar.le (Scalar.ofFloat 1000) p.multiplier

/-- The metric prefixes from a thousandth downwards. -/
def smallMetric : List (Prefix α) :=
  metric.filter fun p => Scalar.le p.multiplier (Scalar.ofFloat 0.001)

def named? (symbol : String) : Option (Prefix α) :=
  (metric ++ binary ++ currency).find? (·.symbol = symbol)

def named (symbol : String) : Except Error (Prefix α) :=
  (named? symbol).elim (.error (.unknownPrefix symbol)) .ok

def among (symbols : List String) : List (Prefix α) :=
  symbols.filterMap named?

/-- The prefixes of a list such as `k,M,G`, which stands or falls as a whole. -/
def readList (list : String) : Except Error (List (Prefix α)) :=
  match (list.toList.splitOn ',').mapM fun symbol => named? (String.ofList symbol) with
  | some prefixes => .ok prefixes
  | none => .error (.invalidPrefixList list)

end Prefix

end Metrology
