import Metrology.Constant
import Metrology.Kind
import Metrology.Registry.Builtin
import Metrology.Registry.Conversion
import Metrology.Service.Request
import Metrology.Service.Response

/-!
# Operations

The operations that a request can name, on the built-in units. `Request.answer` runs a request,
and `Response.ofLine` answers a line of input.
-/

namespace Metrology

inductive Operation where
  | parse
  | reduce
  | add
  | subtract
  | multiply
  | divide
  | pow
  | convert
  | compatible
  | format
  | kind
  | constant
  deriving DecidableEq, Repr

namespace Operation

def all : List Operation :=
  [parse, reduce, add, subtract, multiply, divide, pow, convert, compatible, format, kind,
    constant]

def name : Operation → String
  | parse => "parse"
  | reduce => "reduce"
  | add => "add"
  | subtract => "subtract"
  | multiply => "multiply"
  | divide => "divide"
  | pow => "pow"
  | convert => "convert"
  | compatible => "compatible"
  | format => "format"
  | kind => "kind"
  | constant => "constant"

def named? (name : String) : Option Operation :=
  all.find? (·.name = name)

/-- The number of arguments; the parts of a format may be left out. -/
def arity : Operation → Nat
  | parse | reduce | format | kind | constant => 1
  | add | subtract | multiply | divide | pow | convert | compatible => 2

/-! ### Arguments and results -/

def orFail {β : Type} (x : Except Error β) : Except Refusal β :=
  x.mapError .failed

def readQuantity (text : String) : Except Refusal (Quantity Float) :=
  orFail (Registry.standard.parse text)

def readExponent (text : String) : Except Refusal Exponent :=
  (Exponent.ofChars? (Text.trim text.toList)).elim (.error (.invalidExponent text)) .ok

def readParts (text : String) : Except Refusal Parts :=
  match text with
  | "both" => .ok .both
  | "amount" => .ok .amount
  | "units" => .ok .units
  | "none" => .ok .neither
  | _ => .error (.invalidParts text)

def readConstant (name : String) : Except Refusal Constant :=
  (Constant.named? name).elim (.error (.unknownConstant name (Constant.all.map (·.name)))) .ok

def viewFactor (u : Factor Float) : Json :=
  .object ([("exponent", .integer u.exponent.val)] ++
    u.prefixSymbol?.elim [] (fun symbol => [("prefix", .string symbol)]) ++
    [("symbol", .string u.base.symbol)])

def viewQuantity (style : Style) (q : Quantity Float) : Json :=
  .object [("amount", .ofFloat q.amount), ("text", .string (q.text .both style)),
    ("units", .array (q.units.map viewFactor))]

def viewKind : Option Kind → Json
  | some k => .string k.key
  | none => .null

/-! ### Running -/

/-- The result of an operation on as many arguments as it expects. -/
def run (style : Style) : Operation → List String → Except Refusal Json
  | parse, [text] => return viewQuantity style (← readQuantity text)
  | reduce, [text] => do
    let q ← readQuantity text
    return viewQuantity style (← orFail (Registry.standard.reduce q))
  | add, [a, b] => binary Registry.add a b
  | subtract, [a, b] => binary Registry.subtract a b
  | multiply, [a, b] => binary Registry.multiply a b
  | divide, [a, b] => binary Registry.divide a b
  | pow, [text, n] => do
    let n ← readExponent n
    let q ← readQuantity text
    return viewQuantity style (← orFail (q.pow n))
  | convert, [text, target] => do
    let q ← readQuantity text
    return viewQuantity style (← orFail (Registry.standard.convert q target))
  | compatible, [a, b] => do
    let a ← readQuantity a
    let b ← readQuantity b
    return .bool (← orFail (Registry.standard.compatible a b))
  | format, [text] => formatted text .both
  | format, [text, parts] => do formatted text (← readParts parts)
  | kind, [text] => do
    let q ← readQuantity text
    return viewKind (← orFail (Kind.classify Registry.standard q))
  | constant, [name] => do
    let c ← readConstant name
    return viewQuantity style (← orFail (c.quantity Registry.standard))
  | op, args => .error (.argumentCount op.name op.arity args.length)
where
  binary (f : Registry Float → Quantity Float → Quantity Float → Except Error (Quantity Float))
      (a b : String) : Except Refusal Json := do
    let a ← readQuantity a
    let b ← readQuantity b
    return viewQuantity style (← orFail (f Registry.standard a b))
  formatted (text : String) (parts : Parts) : Except Refusal Json := do
    let q ← readQuantity text
    return .string (← orFail (q.format parts style))

end Operation

/-- The result of a request, in its own style if it has one. -/
def Request.run (defaultStyle : Style) (r : Request) : Except Refusal Json :=
  match Operation.named? r.operation with
  | some op => op.run (r.style.getD defaultStyle) r.arguments
  | none => .error (.unknownOperation r.operation)

def Request.answer (defaultStyle : Style) (r : Request) : Response :=
  ⟨r.id, r.run defaultStyle⟩

def Response.ofLine (defaultStyle : Style) (line : String) : Response :=
  match Request.read? line with
  | some r => r.answer defaultStyle
  | none => ⟨none, .error .unreadable⟩

end Metrology
