import Metrology.Main
import Metrology.Scalar.Rational
import Metrology.Proofs.Outcome
import Metrology.Proofs.Registry.Lookup
import Metrology.Proofs.Registry.Reachable
import Metrology.Proofs.Registry.Definition
import Metrology.Proofs.Quantity.Tidy
import Metrology.Proofs.Quantity.Weight
import Metrology.Proofs.Registry.Dimension
import Metrology.Proofs.Quantity.Totals
import Metrology.Proofs.Quantity.TidyForm
import Metrology.Proofs.Quantity.Permutation
import Metrology.Proofs.Quantity.Power
import Metrology.Proofs.Reduction.Passes
import Metrology.Proofs.Registry.Builtin
import Metrology.Proofs.Reduction.Canonical
import Metrology.Proofs.Reduction.Amount
import Metrology.Proofs.Arithmetic.Dimension
import Metrology.Proofs.Prefix
import Metrology.Proofs.Quantity.Worth
import Metrology.Proofs.Registry.Scale
import Metrology.Proofs.Reduction.OffsetScale
import Metrology.Proofs.Reduction.Value
import Metrology.Proofs.Arithmetic.Value
import Metrology.Proofs.Arithmetic.Negation
import Metrology.Proofs.Arithmetic.OffsetScale
import Metrology.Proofs.Registry.OffsetScale
import Metrology.Proofs.Arithmetic.Inverse
import Metrology.Proofs.Arithmetic.Conversion
import Metrology.Proofs.Scalar.Binary
import Metrology.Proofs.Scalar.Rounding
import Metrology.Proofs.Scalar.Operations
import Metrology.Proofs.Scalar.Near
import Metrology.Proofs.Scalar.Product
import Metrology.Proofs.Reduction.Idempotence
import Metrology.Proofs.Text.Integer
import Metrology.Proofs.Expression.Grammar
import Metrology.Proofs.Expression.Scanner
import Metrology.Proofs.Scalar.Exact
import Metrology.Proofs.Decimal.Shortest
import Metrology.Proofs.Decimal.Numeral
import Metrology.Proofs.Registry.Spelling
import Metrology.Proofs.Text.Blank
import Metrology.Proofs.Quantity.Rendering
import Metrology.Proofs.Registry.PhysicalText
import Metrology.Proofs.Registry.RoundTrip
import Metrology.Proofs.Registry.MoneyText
import Metrology.Proofs.Registry.Resolution
import Metrology.Proofs.Arithmetic.Tidy
import Metrology.Proofs.Arithmetic.Product
import Metrology.Proofs.Registry.Fault
import Metrology.Proofs.Reduction.Failure
import Metrology.Proofs.Reduction.Termination
import Metrology.Proofs.Quantity.Load
import Metrology.Proofs.Reduction.Range
import Metrology.Proofs.Reduction.Standard
import Metrology.Proofs.Registry.Change
import Metrology.Proofs.Registry.Extension
import Metrology.Proofs.Arithmetic.Compatibility
import Metrology.Proofs.Json.Line
import Metrology.Proofs.Text.Line
import Metrology.Proofs.Service.Response
import Metrology.Proofs.Service.Stream
import Metrology.Proofs.Registry.Clash
import Metrology.Proofs.Registry.UnitToken
import Metrology.Proofs.Decimal.Magnitude
import Metrology.Proofs.Text.Superscript
import Metrology.Proofs.Quantity.Style
import Metrology.Proofs.Kind
import Metrology.Proofs.Arithmetic.Failure
import Metrology.Proofs.Service.ErrorCode
