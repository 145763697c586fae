import FixedWidth.Command
import FixedWidth.Command.Perform
import FixedWidth.Decimal.Shortest
import FixedWidth.EvalError
import FixedWidth.Evaluation
import FixedWidth.Files
import FixedWidth.IntType
import FixedWidth.Json.Error
import FixedWidth.Json.Layout
import FixedWidth.Json.Lexer
import FixedWidth.Json.Number
import FixedWidth.Json.Reader
import FixedWidth.Json.Token
import FixedWidth.Json.Tree
import FixedWidth.Literal
import FixedWidth.Log
import FixedWidth.Main
import FixedWidth.Numeral
import FixedWidth.Operator
import FixedWidth.Promotion
import FixedWidth.Promotion.Table
import FixedWidth.Proofs.Accounting
import FixedWidth.Proofs.Agreement
import FixedWidth.Proofs.Arguments
import FixedWidth.Proofs.Arithmetic
import FixedWidth.Proofs.Canonical
import FixedWidth.Proofs.CommandOutput
import FixedWidth.Proofs.Cutting
import FixedWidth.Proofs.Delivery
import FixedWidth.Proofs.Diagnosis
import FixedWidth.Proofs.Differences
import FixedWidth.Proofs.Division
import FixedWidth.Proofs.Encoding
import FixedWidth.Proofs.Expression
import FixedWidth.Proofs.Fields
import FixedWidth.Proofs.Forms
import FixedWidth.Proofs.Grammar
import FixedWidth.Proofs.Lexing
import FixedWidth.Proofs.Meaning
import FixedWidth.Proofs.Merging
import FixedWidth.Proofs.Narrowing
import FixedWidth.Proofs.Numeral
import FixedWidth.Proofs.Positions
import FixedWidth.Proofs.PowersOfTwo
import FixedWidth.Proofs.Reading
import FixedWidth.Proofs.Refusing
import FixedWidth.Proofs.Rendering
import FixedWidth.Proofs.Reordering
import FixedWidth.Proofs.Resizing
import FixedWidth.Proofs.ResultType
import FixedWidth.Proofs.Retagging
import FixedWidth.Proofs.RoundTrip
import FixedWidth.Proofs.RunningFiles
import FixedWidth.Proofs.Shapes
import FixedWidth.Proofs.SharedLiterals
import FixedWidth.Proofs.Shifting
import FixedWidth.Proofs.Spelling
import FixedWidth.Proofs.Stability
import FixedWidth.Proofs.Starving
import FixedWidth.Proofs.Trace
import FixedWidth.Proofs.Truncation
import FixedWidth.Report
import FixedWidth.Run
import FixedWidth.Scenario
import FixedWidth.Scenario.Printer
import FixedWidth.Scenario.Reader
import FixedWidth.Sink
import FixedWidth.Tally
import FixedWidth.Text.Blank
import FixedWidth.Text.Bytes
import FixedWidth.Text.Invisible
import FixedWidth.Text.Quoted
import FixedWidth.Value
import FixedWidth.Verdict
