import BracketCalc.Main
import BracketCalc.Proofs.Expr.Image
import BracketCalc.Proofs.Expr.RoundTrip
import BracketCalc.Proofs.Fault.Outcome
import BracketCalc.Proofs.Fault.FirstFault
import BracketCalc.Proofs.Text.Braces
import BracketCalc.Proofs.Report.Guarded
import BracketCalc.Proofs.Source.Lines
import BracketCalc.Proofs.Worksheet.Steps
import BracketCalc.Proofs.Console.Kept
import BracketCalc.Proofs.Expr.Placed
import BracketCalc.Proofs.Fault.Placed
import BracketCalc.Proofs.Token.Kinds
import BracketCalc.Proofs.Source.Joined
import BracketCalc.Proofs.Expr.Mishap
import BracketCalc.Proofs.Worksheet.Opened
import BracketCalc.Proofs.Worksheet.Ledger
import BracketCalc.Proofs.Token.Lines
import BracketCalc.Proofs.Source.Stripped
import BracketCalc.Proofs.Console.Typed
import BracketCalc.Proofs.Report.Placed
import BracketCalc.Proofs.Program.Agreement
import BracketCalc.Proofs.Program.Ending
import BracketCalc.Proofs.Text.Filled
import BracketCalc.Proofs.Report.Verbatim
import BracketCalc.Proofs.Report.Place
import BracketCalc.Proofs.Fault.Offender
import BracketCalc.Proofs.Program.Pointed
import BracketCalc.Proofs.Token.Runs
import BracketCalc.Proofs.Console.Unfinished
import BracketCalc.Proofs.Expr.Display
import BracketCalc.Proofs.Worksheet.Desk
import BracketCalc.Proofs.Fault.Layout
import BracketCalc.Proofs.Fault.Culprit
import BracketCalc.Proofs.Double.Same
import BracketCalc.Proofs.Expr.Spliced
import BracketCalc.Proofs.Expr.Depth
import BracketCalc.Proofs.Expr.Bracketed
import BracketCalc.Proofs.Fault.NotANumber
import BracketCalc.Proofs.Numeral.Answer
import BracketCalc.Proofs.Source.Shortened
import BracketCalc.Proofs.Report.Marked
import BracketCalc.Proofs.Token.Closing
import BracketCalc.Proofs.Expr.Cursor
