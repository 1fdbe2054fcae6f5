import Metrology.Json.Decode
import Metrology.Quantity.Format

/-!
# Requests

A request names an operation and its arguments, and may carry an identifier to be echoed and a
style of its own. It is written as a JSON object, or as an array of the four values in order of
which the last two may be missing. Fields of other names are passed over.
-/

namespace Metrology

structure Request where
  id : Option Json
  operation : String
  arguments : List String
  style : Option Style

namespace Request

open Json

/-- A request may nest this deep, itself included. -/
def maxLevels : Nat := 127

/-! ### The values of the fields -/

/-- Any value; null counts as no identifier. -/
def readId? (v : Written) : Option (Option Json) :=
  (v.decode? (maxLevels - 1)).map fun
    | .null => none
    | v => some v

def readText? : Written → Option String
  | .string pieces => decodeString? pieces
  | _ => none

def readTexts? : Written → Option (List String)
  | .array elements => elements.mapM readText?
  | _ => none

/-- The name of a style, alone or as the one key of an object, or null. -/
def readStyle? : Written → Option (Option Style)
  | .null => some none
  | .string pieces => do (← Style.named? (← decodeString? pieces))
  | .object [(key, .null)] => do (← Style.named? (← decodeString? key))
  | _ => none

/-! ### Both forms -/

/-- The value of the field `name`, which may be written once. -/
def field? (name : String) (fields : List (String × Written)) : Option (Option Written) :=
  match fields.filter (·.1 = name) with
  | [] => some none
  | [(_, v)] => some (some v)
  | _ => none

def ofFields? (fields : List (String × Written)) : Option Request := do
  let id ← (← field? "id" fields).elim (some none) readId?
  let operation ← (← field? "op" fields).elim none readText?
  let arguments ← (← field? "args" fields).elim (some []) readTexts?
  let style ← (← field? "style" fields).elim (some none) readStyle?
  return ⟨id, operation, arguments, style⟩

def ofElements? : List Written → Option Request
  | [id, operation] => do return ⟨← readId? id, ← readText? operation, [], none⟩
  | [id, operation, arguments] => do
    return ⟨← readId? id, ← readText? operation, ← readTexts? arguments, none⟩
  | [id, operation, arguments, style] => do
    return ⟨← readId? id, ← readText? operation, ← readTexts? arguments, ← readStyle? style⟩
  | _ => none

def ofWritten? : Written → Option Request
  | .object fields => do
    ofFields? (← fields.mapM fun (key, v) => (decodeString? key).map (·, v))
  | .array elements => ofElements? elements
  | _ => none

def read? (line : String) : Option Request :=
  (Written.ofChars? line.toList).bind ofWritten?

end Request

end Metrology
