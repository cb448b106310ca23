import Reckon.Main
import Reckon.Proofs.Except
import Reckon.Proofs.Expression.Tree
import Reckon.Proofs.Numeral.Longest
import Reckon.Proofs.Expression.Execution
import Reckon.Proofs.Expression.SinglePass
import Reckon.Proofs.Expression.Grammar
import Reckon.Proofs.Expression.Soundness
import Reckon.Proofs.Expression.Completeness
import Reckon.Proofs.Expression.FirstFailure
import Reckon.Proofs.Recognition
import Reckon.Proofs.Binary64.Packing
import Reckon.Proofs.Binary64.SignedZero
import Reckon.Proofs.Totality
import Reckon.Proofs.Binary64.LowerBound
import Reckon.Proofs.Complex.BranchCut
import Reckon.Proofs.Complex.ImaginarySign
import Reckon.Proofs.ImaginaryZero
import Reckon.Proofs.Expression.Progress
import Reckon.Proofs.Expression.Ending
import Reckon.Proofs.Locality
import Reckon.Proofs.Expression.Lookahead
import Reckon.Proofs.Expression.Levels
import Reckon.Proofs.Expression.Replacement
import Reckon.Proofs.Expression.Stops
import Reckon.Proofs.Expression.Completion
import Reckon.Proofs.Operations
import Reckon.Proofs.SyntaxFaults
import Reckon.Proofs.Expression.Nesting
import Reckon.Proofs.Expression.Balance
import Reckon.Proofs.DepthLimit
import Reckon.Proofs.Binary64.Exact
import Reckon.Proofs.Binary64.SameValue
import Reckon.Proofs.Complex.RealAxis
import Reckon.Proofs.RealAgreement
import Reckon.Proofs.Causes
import Reckon.Proofs.Noninterference
import Reckon.Proofs.Expression.Visits
import Reckon.Proofs.Expression.Pairs
import Reckon.Proofs.Alike
import Reckon.Proofs.Numeral.Ending
import Reckon.Proofs.Brackets
import Reckon.Proofs.Blanks
import Reckon.Proofs.Ratio
import Reckon.Proofs.Binary64.Rounding
import Reckon.Proofs.Decimal.Reading
import Reckon.Proofs.Decimal.Numeral
import Reckon.Proofs.Binary64.Parts
import Reckon.Proofs.Json.Reader
import Reckon.Proofs.Json.Texts
import Reckon.Proofs.Json.Numbers
import Reckon.Proofs.Json.RoundTrip
import Reckon.Proofs.Records
import Reckon.Proofs.Binary64.Comparison
import Reckon.Proofs.Binary64.Whole
import Reckon.Proofs.Mishaps
import Reckon.Proofs.FaultKinds
import Reckon.Proofs.Divisors
import Reckon.Proofs.Settings
import Reckon.Proofs.Expression.Vocabulary
import Reckon.Proofs.Page.Line
import Reckon.Proofs.Page.Display
import Reckon.Proofs.Session
import Reckon.Proofs.CommandLine
import Reckon.Proofs.Expression.Operands
import Reckon.Proofs.NumberTypes
import Reckon.Proofs.Expression.Places
import Reckon.Proofs.FaultPositions
import Reckon.Proofs.Expression.Shift
import Reckon.Proofs.DerivedForms
import Reckon.Proofs.Expression.Exchange
import Reckon.Proofs.MinusSigns
import Reckon.Proofs.Numeral.Language
import Reckon.Proofs.Page.Markup
import Reckon.Proofs.Expression.Characters
import Reckon.Proofs.Page.Results
import Reckon.Proofs.Expression.Walk
import Reckon.Proofs.Expression.Strides
import Reckon.Proofs.CallDepth
import Reckon.Proofs.Binary64.Accuracy
import Reckon.Proofs.Decimal.Rounding
import Reckon.Proofs.TypedBack
