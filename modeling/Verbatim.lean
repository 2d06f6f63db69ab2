import Verbatim.Unicode.Alphabetic
import Verbatim.Unicode.Numeric
import Verbatim.Unicode.Printable
import Verbatim.Search
import Verbatim.Text.Lines
import Verbatim.Token
import Verbatim.Bracket
import Verbatim.Lexeme.Fault
import Verbatim.Lexeme.Number
import Verbatim.Lexeme
import Verbatim.Options
import Verbatim.Word
import Verbatim.Scanner
import Verbatim.Scanner.Ledger
import Verbatim.Scanner.Run
import Verbatim.Scanner.Lookahead
import Verbatim.Separated
import Verbatim.Tree.Expr
import Verbatim.Tree.Stmt
import Verbatim.ParseError
import Verbatim.Grammar.Stream
import Verbatim.Grammar.Operators
import Verbatim.Grammar.Expression
import Verbatim.Grammar.Statement
import Verbatim.Parse
import Verbatim.Tree.Node
import Verbatim.Tree.Outline
import Verbatim.Tree.View
import Verbatim.Walk
import Verbatim.Walk.Trace
import Verbatim.Walk.NodeSpan
import Verbatim.SourceBuffer
import Verbatim.Diagnostic
import Verbatim.Diagnostic.Render
import Verbatim.Proofs.Token
import Verbatim.Proofs.Text
import Verbatim.Proofs.Scanner.Lexeme
import Verbatim.Proofs.Scanner.Step
import Verbatim.Proofs.Scanner.Account
import Verbatim.Proofs.Scanner.Order
import Verbatim.Proofs.Scanner.Partition
import Verbatim.Proofs.Tree.Pieces
import Verbatim.Proofs.Grammar.Reads
import Verbatim.Proofs.Grammar.Combinators
import Verbatim.Proofs.Grammar.Expression
import Verbatim.Proofs.Grammar.Statement
import Verbatim.Proofs.Grammar.Root
import Verbatim.Proofs.Walk
import Verbatim.Proofs.RoundTrip
import Verbatim.Proofs.Nesting
import Verbatim.Proofs.Records
import Verbatim.Proofs.Spans
import Verbatim.Proofs.Tree.Shape
import Verbatim.Proofs.Ladder.Level
import Verbatim.Proofs.Ladder.OnLadder
import Verbatim.Proofs.Grammar.Succeeds
import Verbatim.Proofs.Scanner.Separate
import Verbatim.Proofs.Scanner.Spaced
import Verbatim.Proofs.Ladder.Rules
import Verbatim.Proofs.Ladder.Complete
import Verbatim.Proofs.Ladder.ParseBack
import Verbatim.Proofs.Tree.Every
import Verbatim.Proofs.Tree.Relabel
import Verbatim.Proofs.Derivation.Expression
import Verbatim.Proofs.Derivation.Statement
import Verbatim.Proofs.Derivation.Level
import Verbatim.Proofs.Derivation.Compose
import Verbatim.Proofs.Derivation.Inside
import Verbatim.Proofs.Grammar.Returns
import Verbatim.Proofs.Derivation.ParseExpression
import Verbatim.Proofs.Derivation.ParseStatement
import Verbatim.Proofs.Derivation.Root
import Verbatim.Proofs.Derivation.Roots
import Verbatim.Proofs.Precedence
import Verbatim.Proofs.Scanner.Ends
import Verbatim.Proofs.Decision.Alike
import Verbatim.Proofs.Decision.Expression
import Verbatim.Proofs.Decision.Statement
import Verbatim.Proofs.Decision.Run
import Verbatim.Proofs.Decision.FailsAt
import Verbatim.Proofs.Decision
import Verbatim.Proofs.Errors
import Verbatim.Proofs.Layout.Line
import Verbatim.Proofs.Layout.Blocks
import Verbatim.Proofs.Layout.Statements
import Verbatim.Proofs.Layout
import Verbatim.Proofs.Brackets.Track
import Verbatim.Proofs.Layout.Turn
import Verbatim.Proofs.Layout.Markers
import Verbatim.Proofs.Brackets
import Verbatim.Proofs.Regular
import Verbatim.Proofs.Layout.Filled
import Verbatim.Proofs.Scanner.Faults
import Verbatim.Proofs.Progress
import Verbatim.Proofs.Layout.LogicalLines
import Verbatim.Proofs.Breaks.Text
import Verbatim.Proofs.Breaks.Lexeme
import Verbatim.Proofs.Breaks.Scanner
import Verbatim.Proofs.Breaks
import Verbatim.Proofs.Concat.Seam
import Verbatim.Proofs.Concat.Statement
import Verbatim.Proofs.Concat.Module
import Verbatim.Proofs.Concat.Text
import Verbatim.Proofs.Concat.Scanner
import Verbatim.Proofs.Concat.Run
import Verbatim.Proofs.BlankLines.Line
import Verbatim.Proofs.Concat.Resume
import Verbatim.Proofs.Concat.LastBreak
import Verbatim.Proofs.Concat.Tokens
import Verbatim.Proofs.Concat
import Verbatim.Proofs.Interpreter
import Verbatim.Proofs.Lines.Text
import Verbatim.Proofs.Lines.Search
import Verbatim.Proofs.Lines.Index
import Verbatim.Proofs.Lines.Count
import Verbatim.Proofs.Lines.Partition
import Verbatim.Proofs.Lines.Position
import Verbatim.Proofs.Lines.Scanner
import Verbatim.Proofs.Lines
import Verbatim.Proofs.Grammar.Starts
import Verbatim.Proofs.ExpressionStatement
import Verbatim.Proofs.Calls.SameBelow
import Verbatim.Proofs.Calls.Expression
import Verbatim.Proofs.Calls.Statement
import Verbatim.Proofs.Calls.Advances
import Verbatim.Proofs.Calls
import Verbatim.Proofs.Calls.Depth
import Verbatim.Proofs.Lexeme.Token
import Verbatim.Proofs.Lexeme.Numeral
import Verbatim.Proofs.Lexeme.Units
import Verbatim.Proofs.Lexeme.Literal
import Verbatim.Proofs.TabSize.Blocks
import Verbatim.Proofs.Layout.Ledger
import Verbatim.Proofs.TabSize
import Verbatim.Proofs.BlankLines.Inside
import Verbatim.Proofs.BlankLines.Seam
import Verbatim.Proofs.BlankLines.Cut
import Verbatim.Proofs.BlankLines
import Verbatim.Proofs.Records.First
import Verbatim.Proofs.Records.Paths
import Verbatim.Proofs.Records.Innermost
import Verbatim.Proofs.Scanner.Spread
import Verbatim.Proofs.Subtree.Edges
import Verbatim.Proofs.Subtree.Stretch
import Verbatim.Proofs.Subtree
import Verbatim.Proofs.Lexeme.Operator
import Verbatim.Proofs.Scanner.Cut
import Verbatim.Proofs.Spelling
import Verbatim.Proofs.ListEnds
import Verbatim.Proofs.Braces.Plain
import Verbatim.Proofs.Braces
import Verbatim.Proofs.Derivation.First
import Verbatim.Proofs.Arguments
import Verbatim.Proofs.Assignment
import Verbatim.Proofs.Parameters
import Verbatim.Proofs.Lines.Window
import Verbatim.Proofs.Lines.Word
import Verbatim.Proofs.Excerpt
import Verbatim.Proofs.Overlap
