import TableCalc.Main
import TableCalc.Proofs.Address.Target
import TableCalc.Proofs.Table.Cells
import TableCalc.Proofs.Engine.Frame
import TableCalc.Proofs.Engine.InPlace
import TableCalc.Proofs.Engine.SingleCells
import TableCalc.Proofs.Directive.Derivation
import TableCalc.Proofs.Engine.Dependence
import TableCalc.Proofs.Engine.Reordering
import TableCalc.Proofs.Document.Cells
import TableCalc.Proofs.Engine.Recalculation
import TableCalc.Proofs.Text.Lines
import TableCalc.Proofs.Document.Rows
import TableCalc.Proofs.Document.Kinds
import TableCalc.Proofs.Document.Division
import TableCalc.Proofs.Document.Legible
import TableCalc.Proofs.Document.RoundTrip
import TableCalc.Proofs.Directive.Literals
import TableCalc.Proofs.Text.Numerals
import TableCalc.Proofs.Engine.Texts
import TableCalc.Proofs.Document.Evaluation
import TableCalc.Proofs.Document.Sections
import TableCalc.Proofs.Engine.Padding
import TableCalc.Proofs.Document.TableText
import TableCalc.Proofs.Document.Comments
import TableCalc.Proofs.Address.Widening
import TableCalc.Proofs.Document.Reevaluation
import TableCalc.Proofs.Text.Endings
import TableCalc.Proofs.Document.Untabled
import TableCalc.Proofs.Document.Positions
import TableCalc.Proofs.Table.Shapes
import TableCalc.Proofs.Function.Standard
import TableCalc.Proofs.Directive.Calls
import TableCalc.Proofs.Engine.Failure
import TableCalc.Proofs.Address.Errors
import TableCalc.Proofs.Engine.Safety
import TableCalc.Proofs.Address.Moving
import TableCalc.Proofs.Engine.Moving
import TableCalc.Proofs.Directive.Composition
import TableCalc.Proofs.Directive.WellFormed
import TableCalc.Proofs.Json.Printer
import TableCalc.Proofs.Server.Library
import TableCalc.Proofs.Server.Session
import TableCalc.Proofs.Calendar.Dates
import TableCalc.Proofs.Calendar.Words
import TableCalc.Proofs.Calendar.Instants
import TableCalc.Proofs.Text.Digits
import TableCalc.Proofs.Calendar.Texts
import TableCalc.Proofs.Calendar.Durations
import TableCalc.Proofs.Cell.Patterns
import TableCalc.Proofs.Decimal.Scaling
import TableCalc.Proofs.Decimal.Canonical
import TableCalc.Proofs.Cell.Numbers
import TableCalc.Proofs.Cell.Timestamps
import TableCalc.Proofs.Cell.Durations
import TableCalc.Proofs.Decimal.Nearest
import TableCalc.Proofs.Decimal.Values
import TableCalc.Proofs.Decimal.Quotients
import TableCalc.Proofs.Decimal.Sums
import TableCalc.Proofs.Decimal.Division
import TableCalc.Proofs.Decimal.Texts
import TableCalc.Proofs.Cell.Canonical
import TableCalc.Proofs.Cell.Arithmetic
import TableCalc.Proofs.Decimal.Grammar
import TableCalc.Proofs.Cell.Decimals
import TableCalc.Proofs.Function.Totals
import TableCalc.Proofs.Function.Median
import TableCalc.Proofs.Engine.Broadcast
import TableCalc.Proofs.Address.Spans
import TableCalc.Proofs.Table.Selections
import TableCalc.Proofs.Directive.Precedence
import TableCalc.Proofs.Directive.Printing
import TableCalc.Proofs.Function.Suggestions
import TableCalc.Proofs.Function.Registration
import TableCalc.Proofs.Document.Columns
import TableCalc.Proofs.Decimal.Integers
import TableCalc.Proofs.Engine.Precision
