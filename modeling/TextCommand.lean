import TextCommand.Main
import TextCommand.Proofs.Node.Descent
import TextCommand.Proofs.Node.Endpoint
import TextCommand.Proofs.Reader.Settled
import TextCommand.Proofs.Node.WholeInput
import TextCommand.Proofs.Node.Path
import TextCommand.Proofs.Game.Effect
import TextCommand.Proofs.Console.Permission
import TextCommand.Proofs.Number.Integer
import TextCommand.Proofs.Reader.Spelling
import TextCommand.Proofs.Argument.Written
import TextCommand.Proofs.Node.Rendering
import TextCommand.Proofs.Reader.Position
import TextCommand.Proofs.Node.Rewind
import TextCommand.Proofs.Reader.Shift
import TextCommand.Proofs.Node.Shift
import TextCommand.Proofs.Argument.Token
import TextCommand.Proofs.Reader.Continued
import TextCommand.Proofs.Node.Continued
import TextCommand.Proofs.Game.Scoreboard
import TextCommand.Proofs.Game.Ledger
import TextCommand.Proofs.Game.AllOrNothing
import TextCommand.Proofs.Reader.Boundary
import TextCommand.Proofs.Reader.Contract
import TextCommand.Proofs.Reader.Offset
import TextCommand.Proofs.Reader.Operation
import TextCommand.Proofs.Number.Decimal
import TextCommand.Proofs.Number.Rounding
import TextCommand.Proofs.Number.Shortest
import TextCommand.Proofs.Game.Position
import TextCommand.Proofs.Node.Alike
import TextCommand.Proofs.Node.Impartial
import TextCommand.Proofs.Node.Limit
import TextCommand.Proofs.Argument.Taken
import TextCommand.Proofs.Node.Separation
import TextCommand.Proofs.Console.Quiet
import TextCommand.Proofs.Console.Repl
import TextCommand.Proofs.Number.Numeral
import TextCommand.Proofs.Reader.Quotation
import TextCommand.Proofs.Reader.Integer
import TextCommand.Proofs.Number.Encoding
import TextCommand.Proofs.Number.Nearest
import TextCommand.Proofs.Number.Fraction
import TextCommand.Proofs.Reader.Decimal
import TextCommand.Proofs.Node.Usage
import TextCommand.Proofs.Node.Precedence
import TextCommand.Proofs.Argument.Progress
import TextCommand.Proofs.Node.Visit
import TextCommand.Proofs.Node.Failure
import TextCommand.Proofs.Node.FailingStep
import TextCommand.Proofs.Console.Caret
import TextCommand.Proofs.Node.Surroundings
import TextCommand.Proofs.Argument.Sequence
import TextCommand.Proofs.Node.Drafting
import TextCommand.Proofs.Reader.Lookahead
import TextCommand.Proofs.Text.Blank
import TextCommand.Proofs.Console.Lines
