import Bhasha.Text.Blank
import Bhasha.Text.Case
import Bhasha.Text.Quoted
import Bhasha.Number.Format
import Bhasha.Number.Integer
import Bhasha.Number.Numeral
import Bhasha.Table
import Bhasha.Token.Lexer
import Bhasha.Parser.Statement
import Bhasha.Value.Access
import Bhasha.Builtin.Apply
import Bhasha.Context
import Bhasha.Run
import Bhasha.Main
import Bhasha.Proofs.Grammar.Expression
import Bhasha.Proofs.Grammar.Statement
import Bhasha.Proofs.Parser.StatementSoundness
import Bhasha.Proofs.Grammar.Follow
import Bhasha.Proofs.Parser.Reading
import Bhasha.Proofs.Parser.ExpressionCompleteness
import Bhasha.Proofs.Parser.StatementCompleteness
import Bhasha.Proofs.Parser.Acceptance
import Bhasha.Proofs.Program.Places
import Bhasha.Proofs.Run.Outcome
import Bhasha.Proofs.Run.ScopeDiscipline
import Bhasha.Proofs.Run.Activation
import Bhasha.Proofs.Run.Invariant
import Bhasha.Proofs.Run.Control
import Bhasha.Proofs.Run.FatalRules
import Bhasha.Proofs.Store.Reachability
import Bhasha.Proofs.Run.FatalEnd
import Bhasha.Proofs.Store.Taken
import Bhasha.Proofs.Builtin.Bounds
import Bhasha.Proofs.Program.Lines
import Bhasha.Proofs.Run.OperationLines
import Bhasha.Proofs.Run.SideBySide
import Bhasha.Proofs.Token.Cut
import Bhasha.Proofs.Run.InStep
import Bhasha.Proofs.Grammar.Lines
import Bhasha.Proofs.Parser.ErrorLine
import Bhasha.Proofs.Run.FaultLine
import Bhasha.Proofs.Program.Printer
import Bhasha.Proofs.Run.VisibleBindings
import Bhasha.Proofs.Grammar.PrintedExpression
import Bhasha.Proofs.Grammar.Parentheses
import Bhasha.Proofs.Grammar.PrintedStatement
import Bhasha.Proofs.Parser.RoundTrip
import Bhasha.Proofs.Run.Surplus
import Bhasha.Proofs.Run.Incremental
import Bhasha.Proofs.Run.CallDepth
import Bhasha.Proofs.Run.RaisedLimit
import Bhasha.Proofs.Token.Join
import Bhasha.Proofs.Grammar.Carried
import Bhasha.Proofs.Parser.InAttempt
import Bhasha.Proofs.Run.InAttempt
import Bhasha.Proofs.Parser.Concatenation
import Bhasha.Proofs.Store.Closed
import Bhasha.Proofs.Store.Operations
import Bhasha.Proofs.Store.Kinds
import Bhasha.Proofs.Run.Guarded
import Bhasha.Proofs.Run.Confined
import Bhasha.Proofs.Run.Confinement
import Bhasha.Proofs.Parser.Place
import Bhasha.Proofs.Parser.Lockstep
import Bhasha.Proofs.Parser.LockstepExpression
import Bhasha.Proofs.Parser.LockstepStatement
import Bhasha.Proofs.Parser.FirstError
import Bhasha.Proofs.Number.Canonical
import Bhasha.Proofs.Number.Rounding
import Bhasha.Proofs.Number.Quotient
import Bhasha.Proofs.Number.Decimal
import Bhasha.Proofs.Number.ReadBack
import Bhasha.Proofs.Display.Cutting
import Bhasha.Proofs.Display.Copy
import Bhasha.Proofs.Display.Unfolding
import Bhasha.Proofs.Display.Source
import Bhasha.Proofs.Token.Written
import Bhasha.Proofs.Run.Pervades
import Bhasha.Proofs.Run.RecordKeys
import Bhasha.Proofs.Run.Addresses
import Bhasha.Proofs.Run.Shadowing
import Bhasha.Proofs.Display.Writer
import Bhasha.Proofs.Run.IndexWrite
import Bhasha.Proofs.Run.Nested
import Bhasha.Proofs.Run.Shielding
import Bhasha.Proofs.Run.RangeSequence
import Bhasha.Proofs.Store.ChainEnd
import Bhasha.Proofs.Builtin.Footprint
import Bhasha.Proofs.Number.Whole
import Bhasha.Proofs.Builtin.Slice
import Bhasha.Proofs.Text.Bytes
import Bhasha.Proofs.Builtin.Search
import Bhasha.Proofs.Number.Order
import Bhasha.Proofs.Text.Order
import Bhasha.Proofs.Number.NotANumber
import Bhasha.Proofs.Value.LooseEquality
import Bhasha.Proofs.Value.Comparison
import Bhasha.Proofs.Number.Grammar
import Bhasha.Proofs.Number.TextConversion
import Bhasha.Proofs.Token.Pattern
import Bhasha.Proofs.Token.Partition
import Bhasha.Proofs.Builtin.Extremum
import Bhasha.Proofs.Builtin.Count
import Bhasha.Proofs.Program.SourceOrder
import Bhasha.Proofs.Grammar.SourceOrder
import Bhasha.Proofs.Parser.SourceOrder
import Bhasha.Proofs.Grammar.EndOfInput
import Bhasha.Proofs.Parser.Descent
import Bhasha.Proofs.Parser.Recursion
import Bhasha.Proofs.Parser.Progress
import Bhasha.Proofs.Run.References
import Bhasha.Proofs.Run.Succession
import Bhasha.Proofs.Run.Turns
import Bhasha.Proofs.Run.Literals
import Bhasha.Proofs.Run.Places
import Bhasha.Proofs.Run.HandingOn
import Bhasha.Proofs.Run.Assigned
import Bhasha.Proofs.Run.Returns
import Bhasha.Proofs.Run.Identity
