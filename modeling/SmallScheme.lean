import SmallScheme.Console.Command
import SmallScheme.Main
import SmallScheme.Proofs.Scope.Frame
import SmallScheme.Proofs.Node.Building
import SmallScheme.Proofs.Place.Evaluation
import SmallScheme.Proofs.Evaluation.Fuel
import SmallScheme.Proofs.Place.Layout
import SmallScheme.Proofs.Token.Lines
import SmallScheme.Proofs.Console.Input
import SmallScheme.Proofs.Console.Session
import SmallScheme.Proofs.Text.Slice
import SmallScheme.Proofs.Token.Lossless
import SmallScheme.Proofs.Token.Recognition
import SmallScheme.Proofs.Token.Pieces
import SmallScheme.Proofs.Token.Continuation
import SmallScheme.Proofs.Console.Waiting
import SmallScheme.Proofs.Node.Form
import SmallScheme.Proofs.Node.Flattening
import SmallScheme.Proofs.Node.Printing
import SmallScheme.Proofs.Evaluation.Raised
import SmallScheme.Proofs.Evaluation.Coupling
import SmallScheme.Proofs.Scope.Walk
import SmallScheme.Proofs.Scope.Arena
import SmallScheme.Proofs.Scope.Lexical
import SmallScheme.Proofs.Node.Grammar
import SmallScheme.Proofs.Token.Segment
import SmallScheme.Proofs.Token.Fault
import SmallScheme.Proofs.Node.Place
import SmallScheme.Proofs.Evaluation.Origin
import SmallScheme.Proofs.Diagnostic.Location
import SmallScheme.Proofs.Console.Report
import SmallScheme.Proofs.Node.Verdict
import SmallScheme.Proofs.Node.Literal
import SmallScheme.Proofs.Evaluation.Guards
import SmallScheme.Proofs.Evaluation.Visit
import SmallScheme.Proofs.Scope.Roles
import SmallScheme.Proofs.Evaluation.Truncation
import SmallScheme.Proofs.Evaluation.Arithmetic
import SmallScheme.Proofs.Node.Scan
import SmallScheme.Proofs.Token.Cursor
import SmallScheme.Proofs.Node.Extent
import SmallScheme.Proofs.Token.Joining
import SmallScheme.Proofs.Scope.Shadowing
import SmallScheme.Proofs.Evaluation.Unmentioned
