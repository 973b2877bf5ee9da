import ReversePolish.Main
import ReversePolish.Proofs.Number.Nearest
import ReversePolish.Proofs.Number.Shortest
import ReversePolish.Proofs.Number.Reading
import ReversePolish.Proofs.Number.Bits
import ReversePolish.Proofs.Number.RoundTrip
import ReversePolish.Proofs.Lexeme
import ReversePolish.Proofs.Expr.Listing
import ReversePolish.Proofs.Expr.PostfixRoundTrip
import ReversePolish.Proofs.Bindings
import ReversePolish.Proofs.Expr.PartialEvaluation
import ReversePolish.Proofs.Expr.Folding
import ReversePolish.Proofs.Expr.ReadingFailure
import ReversePolish.Proofs.Session
import ReversePolish.Proofs.Command
import ReversePolish.Proofs.VariableName
import ReversePolish.Proofs.Expr.CanonicalForm
import ReversePolish.Proofs.Session.Confinement
import ReversePolish.Proofs.Expr.FreeVariables
import ReversePolish.Proofs.Session.Answers
import ReversePolish.Proofs.Text.Bytes
import ReversePolish.Proofs.Text.Line
import ReversePolish.Proofs.Script
import ReversePolish.Proofs.Program
import ReversePolish.Proofs.Expr.Agreement
import ReversePolish.Proofs.Bindings.Edits
import ReversePolish.Proofs.Session.Edits
import ReversePolish.Proofs.Number.Value
import ReversePolish.Proofs.Number.Literal
import ReversePolish.Proofs.Number.FewestDigits
import ReversePolish.Proofs.Number.Notation
import ReversePolish.Proofs.Library
import ReversePolish.Proofs.Expr.NormalForm
import ReversePolish.Proofs.Expr.InfixNotation
import ReversePolish.Proofs.Expr.EvaluationFailure
import ReversePolish.Proofs.Expr.Steps
import ReversePolish.Proofs.Expr.OperationCount
import ReversePolish.Proofs.Expr.Savings
import ReversePolish.Proofs.Program.Arguments
import ReversePolish.Proofs.Session.Listing
import ReversePolish.Proofs.Readers
import ReversePolish.Proofs.Session.Reports
import ReversePolish.Proofs.Session.SingleLines
import ReversePolish.Proofs.Script.Streams
import ReversePolish.Proofs.Expr.Outline
