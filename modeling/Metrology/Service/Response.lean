import Metrology.Error
import Metrology.Json.Basic

/-!
# Responses

A response carries either a result or the reason for a refusal, and the identifier of its request
where there was one.
-/

namespace Metrology

/-- Why a request has no result. -/
inductive Refusal where
  | failed (e : Error)
  | unreadable
  | unknownOperation (name : String)
  | argumentCount (operation : String) (expected got : Nat)
  | invalidExponent (text : String)
  | invalidParts (text : String)
  | unknownConstant (name : String) (known : List String)
  deriving DecidableEq, Repr

namespace Refusal

def code : Refusal → String
  | failed e => e.code.text
  | _ => "INVALID_REQUEST"

def message : Refusal → String
  | failed e => e.message
  | unreadable => "Parse error: the line is not a request"
  | unknownOperation name => s!"Unknown operation '{name}'"
  | argumentCount operation expected got =>
    s!"'{operation}' expects {expected} argument(s), got {got}"
  | invalidExponent text => s!"Invalid argument: '{text}' is not an integer exponent"
  | invalidParts text =>
    s!"Invalid argument: '{text}' is not one of both, amount, units, none"
  | unknownConstant name known =>
    s!"Invalid argument: Unknown constant '{name}'. Known: " ++ String.intercalate ", " known

def toJson (r : Refusal) : Json :=
  .object [("code", .string r.code), ("message", .string r.message)]

end Refusal

structure Response where
  id : Option Json
  outcome : Except Refusal Json

namespace Response

def toJson (r : Response) : Json :=
  let id := r.id.elim [] fun id => [("id", id)]
  match r.outcome with
  | .ok result => .object (id ++ [("result", result)])
  | .error refusal => .object (id ++ [("error", refusal.toJson)])

def line (r : Response) : String :=
  String.ofList r.toJson.write

def output (r : Response) : String :=
  r.line ++ "\n"

end Response

end Metrology
