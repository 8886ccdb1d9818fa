import MiniScheme.Arithmetic.LeadingInteger
import MiniScheme.Arithmetic.Operator
import MiniScheme.Binary64
import MiniScheme.CommandLine
import MiniScheme.Datum.Basic
import MiniScheme.Datum.Checked
import MiniScheme.Datum.Equality
import MiniScheme.Datum.Printed
import MiniScheme.Editor.Diagnostic
import MiniScheme.Editor.Signature
import MiniScheme.Editor.Word
import MiniScheme.Editor.Workspace
import MiniScheme.Error
import MiniScheme.Evaluation.Evaluate
import MiniScheme.Evaluation.Form
import MiniScheme.Grammar.Expression
import MiniScheme.Grammar.Number
import MiniScheme.Grammar.Recipe
import MiniScheme.Grammar.Token
import MiniScheme.Main
import MiniScheme.Nesting
import MiniScheme.Numeral
import MiniScheme.Proofs.Arithmetic.Application
import MiniScheme.Proofs.Arithmetic.Calculation
import MiniScheme.Proofs.Arithmetic.Division
import MiniScheme.Proofs.Arithmetic.LeadingInteger
import MiniScheme.Proofs.Arithmetic.Operator
import MiniScheme.Proofs.Binary64.Equality
import MiniScheme.Proofs.Binary64.Nearest
import MiniScheme.Proofs.Binary64.Value
import MiniScheme.Proofs.Datum.Equality
import MiniScheme.Proofs.Datum.Normal
import MiniScheme.Proofs.Datum.Printed
import MiniScheme.Proofs.Datum.ReadBack
import MiniScheme.Proofs.Datum.Readable
import MiniScheme.Proofs.Datum.Unprintable
import MiniScheme.Proofs.Editor.Agreement
import MiniScheme.Proofs.Editor.Coordinates
import MiniScheme.Proofs.Editor.Handling
import MiniScheme.Proofs.Editor.Hover
import MiniScheme.Proofs.Editor.Independence
import MiniScheme.Proofs.Editor.MaximalWord
import MiniScheme.Proofs.Editor.Publication
import MiniScheme.Proofs.Evaluation.Congruence
import MiniScheme.Proofs.Evaluation.Order
import MiniScheme.Proofs.Evaluation.Substitution
import MiniScheme.Proofs.Evaluation.Value
import MiniScheme.Proofs.Grammar.Completeness
import MiniScheme.Proofs.Grammar.CursorDiscipline
import MiniScheme.Proofs.Grammar.Denotes
import MiniScheme.Proofs.Grammar.DoubleLiteral
import MiniScheme.Proofs.Grammar.Exactness
import MiniScheme.Proofs.Grammar.Fractions
import MiniScheme.Proofs.Grammar.IntegerLiteral
import MiniScheme.Proofs.Grammar.Nested
import MiniScheme.Proofs.Grammar.OnePass
import MiniScheme.Proofs.Grammar.Shift
import MiniScheme.Proofs.Grammar.Soundness
import MiniScheme.Proofs.Grammar.StringLiteral
import MiniScheme.Proofs.Grammar.Termination
import MiniScheme.Proofs.Grammar.TokenContract
import MiniScheme.Proofs.Grammar.TokenRun
import MiniScheme.Proofs.Grammar.Unlimited
import MiniScheme.Proofs.Nesting.Outcomes
import MiniScheme.Proofs.Nesting.Recursion
import MiniScheme.Proofs.Read
import MiniScheme.Proofs.Reading.Alternatives
import MiniScheme.Proofs.Reading.Composed
import MiniScheme.Proofs.Reading.Expectation
import MiniScheme.Proofs.Reading.Limit
import MiniScheme.Proofs.Reading.Merging
import MiniScheme.Proofs.Reading.Postcondition
import MiniScheme.Proofs.Reading.Run
import MiniScheme.Proofs.Reading.Shift
import MiniScheme.Proofs.Session.Failure
import MiniScheme.Proofs.Session.Unprintable
import MiniScheme.Proofs.Text.Classes
import MiniScheme.Proofs.Text.Coordinates
import MiniScheme.Proofs.Text.Lines
import MiniScheme.Proofs.Text.PlaceOrder
import MiniScheme.Proofs.Trace
import MiniScheme.Read
import MiniScheme.Reading.Mismatch
import MiniScheme.Reading.Rule
import MiniScheme.Session
import MiniScheme.Settings
import MiniScheme.Text.Blank
import MiniScheme.Text.Capital
import MiniScheme.Text.CodePoints
import MiniScheme.Text.Letter
import MiniScheme.Text.Lines
import MiniScheme.Text.Numeric
import MiniScheme.Text.Place
import MiniScheme.Text.Printable
import MiniScheme.Text.Quoted
import MiniScheme.Trace
