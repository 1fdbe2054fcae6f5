/-!
# Errors

An error names its cause and the text at fault. `Error.code` is its class for programs and
`Error.message` its wording for people.
-/

namespace Metrology

inductive Error where
  | malformedQuantity (text : String)
  | malformedUnit (token : String)
  | invalidAmount (text : String)
  | unknownUnit (token : String)
  | unknownCurrency (symbol : Char)
  | invalidCurrencyPrefix (letter : Char)
  | exponentOutOfRange (unit : String)
  | notReduced (quantity : String) (passes : Nat)
  | targetWithAmount (target : String)
  | invalidPrefixList (list : String)
  | unknownStyle (name : String)
  | unknownPrefix (symbol : String)
  | duplicateSymbol (symbol : String)
  | incompatibleUnits (left right : String)
  | emptyRendering
  deriving DecidableEq, Repr

inductive ErrorCode where
  | format
  | unknownPrefix
  | duplicateSymbol
  | incompatibleUnits
  | render
  deriving DecidableEq, Repr

def ErrorCode.text : ErrorCode → String
  | .format => "FORMAT_ERROR"
  | .unknownPrefix => "UNKNOWN_PREFIX"
  | .duplicateSymbol => "DUPLICATE_SYMBOL"
  | .incompatibleUnits => "INCOMPATIBLE_UNITS"
  | .render => "RENDER_ERROR"

namespace Error

def code : Error → ErrorCode
  | unknownPrefix _ => .unknownPrefix
  | duplicateSymbol _ => .duplicateSymbol
  | incompatibleUnits _ _ => .incompatibleUnits
  | emptyRendering => .render
  | _ => .format

def detail : Error → String
  | malformedQuantity text => s!"The string '{text}' is not in the correct format."
  | malformedUnit token => s!"The unit '{token}' is in an incorrect format or invalid or unknown."
  | invalidAmount text => s!"Invalid amount '{text}'."
  | unknownUnit token => s!"Base unit '{token}' is invalid or unknown."
  | unknownCurrency symbol => s!"Currency unit '{symbol}' is invalid or unknown."
  | invalidCurrencyPrefix letter => s!"Invalid currency prefix '{letter}'."
  | exponentOutOfRange unit => s!"The exponent of unit '{unit}' is out of range."
  | notReduced quantity passes =>
    s!"Could not reduce the units of '{quantity}' in {passes} passes."
  | targetWithAmount target =>
    s!"The conversion target '{target}' must be a unit expression without an amount."
  | invalidPrefixList list =>
    s!"Invalid format '{list}'. It should be a comma-separated string of valid prefixes, " ++
      "without spaces, e.g. \"k,M,G\""
  | unknownStyle name => s!"Unknown format style '{name}', expected 'nice' or 'ascii'."
  | unknownPrefix symbol => s!"'{symbol}'"
  | duplicateSymbol symbol => s!"there is already a unit with the symbol '{symbol}'"
  | incompatibleUnits left right => s!"'{left}' and '{right}'"
  | emptyRendering =>
    "Either the amount or the units or both must be included in the output string."

def heading : ErrorCode → String
  | .format => "Format error"
  | .unknownPrefix => "Unknown prefix"
  | .duplicateSymbol => "Duplicate symbol"
  | .incompatibleUnits => "Incompatible units"
  | .render => "Render error"

/-- The heading of the class, then what went wrong. -/
def message (e : Error) : String :=
  s!"{heading e.code}: {e.detail}"

end Error

end Metrology
