import Fluxion.Main
import Fluxion.Evaluation
import Fluxion.Term.Json
import Fluxion.Proofs.Number.Exact
import Fluxion.Proofs.Number.Reading
import Fluxion.Proofs.Number.RoundTrip
import Fluxion.Proofs.Derivative.Normal
import Fluxion.Proofs.Derivative.Text
import Fluxion.Proofs.Derivative.ReadBack
import Fluxion.Proofs.Rendering
import Fluxion.Proofs.Calculus
import Fluxion.Proofs.WrittenSum
import Fluxion.Proofs.Parse
import Fluxion.Proofs.Whitespace
import Fluxion.Proofs.Fault
import Fluxion.Proofs.Number.Product
import Fluxion.Proofs.Derivative.Vanishing
import Fluxion.Proofs.Derivative.Overflow
import Fluxion.Proofs.Blank
import Fluxion.Proofs.Span
import Fluxion.Proofs.Validation
import Fluxion.Proofs.Report
import Fluxion.Proofs.WrittenSum.ReadBack
import Fluxion.Proofs.WrittenSum.Layout
import Fluxion.Proofs.Lines
import Fluxion.Proofs.Answer
import Fluxion.Proofs.Batch
import Fluxion.Proofs.Typing
import Fluxion.Proofs.Session
import Fluxion.Proofs.Session.Transcript
import Fluxion.Proofs.Program
import Fluxion.Lexeme.Rule
import Fluxion.Proofs.Lexeme.Rule
import Fluxion.Proofs.Tokenization
import Fluxion.Proofs.Cursor
import Fluxion.Proofs.Number.Notation
import Fluxion.Proofs.Term.Json
import Fluxion.Proofs.Derivative.Invariant
import Fluxion.Proofs.Term.Tokens
import Fluxion.Proofs.Shape.Suggestion
