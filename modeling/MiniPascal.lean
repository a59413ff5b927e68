import MiniPascal.CommandLine.Options
import MiniPascal.CommandLine.Report
import MiniPascal.CommandLine.Run
import MiniPascal.Diagnostic
import MiniPascal.Main
import MiniPascal.Parse.Basic
import MiniPascal.Parse.Expr
import MiniPascal.Parse.Parser
import MiniPascal.Parse.Program
import MiniPascal.Parse.Stmt
import MiniPascal.Print.Layout
import MiniPascal.Print.Tree
import MiniPascal.Proofs.Action
import MiniPascal.Proofs.Change
import MiniPascal.Proofs.CommandLine.Arguments
import MiniPascal.Proofs.CommandLine.Outcome
import MiniPascal.Proofs.DanglingElse
import MiniPascal.Proofs.Diagnostics
import MiniPascal.Proofs.Display
import MiniPascal.Proofs.EndOfInput
import MiniPascal.Proofs.Grammar.Accepted
import MiniPascal.Proofs.Grammar.Ebnf
import MiniPascal.Proofs.Grammar.FirstError
import MiniPascal.Proofs.Grammar.Follows
import MiniPascal.Proofs.Grammar.Readable
import MiniPascal.Proofs.Grammar.RulesFollow
import MiniPascal.Proofs.Ids
import MiniPascal.Proofs.LetterCase
import MiniPascal.Proofs.Lexing.LetterCase
import MiniPascal.Proofs.Lexing.Lexeme
import MiniPascal.Proofs.Lexing.Lines
import MiniPascal.Proofs.Lexing.Lookahead
import MiniPascal.Proofs.Lexing.Lossless
import MiniPascal.Proofs.Lexing.Places
import MiniPascal.Proofs.Lexing.Trivia
import MiniPascal.Proofs.Lexing.Writing
import MiniPascal.Proofs.LineEnds
import MiniPascal.Proofs.Listing
import MiniPascal.Proofs.Natural
import MiniPascal.Proofs.Positions
import MiniPascal.Proofs.Precedence
import MiniPascal.Proofs.Printing.Formed
import MiniPascal.Proofs.Printing.Grouping
import MiniPascal.Proofs.Printing.Numbering
import MiniPascal.Proofs.Printing.Printed
import MiniPascal.Proofs.Printing.Reread
import MiniPascal.Proofs.Printing.RoundTrip
import MiniPascal.Proofs.Printing.Terse
import MiniPascal.Proofs.Printing.WellFormed
import MiniPascal.Proofs.Printing.Written
import MiniPascal.Proofs.Reading.CompleteExpr
import MiniPascal.Proofs.Reading.CompleteProgram
import MiniPascal.Proofs.Reading.CompleteStmt
import MiniPascal.Proofs.Reading.Expr
import MiniPascal.Proofs.Reading.Program
import MiniPascal.Proofs.Reading.Sound
import MiniPascal.Proofs.Reading.Stmt
import MiniPascal.Proofs.Relabelling
import MiniPascal.Proofs.Sources
import MiniPascal.Proofs.Spacing
import MiniPascal.Proofs.Storage
import MiniPascal.Proofs.Window.Calls
import MiniPascal.Proofs.Window.Rules
import MiniPascal.Proofs.Window.Tracks
import MiniPascal.Segment.Basic
import MiniPascal.Segment.Lexeme
import MiniPascal.Segment.OfText
import MiniPascal.Source.Basic
import MiniPascal.Source.Feed
import MiniPascal.Source.Lexer
import MiniPascal.Source.Stream
import MiniPascal.Storage.FileSystem
import MiniPascal.Storage.Path
import MiniPascal.Storage.SourceFile
import MiniPascal.Syntax.Expr
import MiniPascal.Syntax.Listing
import MiniPascal.Syntax.Map
import MiniPascal.Syntax.Node
import MiniPascal.Syntax.Program
import MiniPascal.Syntax.Stmt
import MiniPascal.Syntax.VarGroups
import MiniPascal.Text.Alphabetic
import MiniPascal.Text.Columns
import MiniPascal.Text.Lines
import MiniPascal.Text.Numeric
import MiniPascal.Text.Ranges
import MiniPascal.Text.WhiteSpace
import MiniPascal.Token.Basic
import MiniPascal.Token.Kind
import MiniPascal.Token.Lookback
import MiniPascal.Token.Position
import MiniPascal.Ty
import MiniPascal.TypeTable
import MiniPascal.Window.Action
import MiniPascal.Window.Rules
import MiniPascal.Proofs.LineEnds
import MiniPascal.Proofs.Display
import MiniPascal.Proofs.EndOfInput
import MiniPascal.Proofs.LongestMatch
import MiniPascal.Print.Printer
import MiniPascal.Proofs.Indentation
import MiniPascal.Proofs.Annotation
import MiniPascal.Proofs.Size
import MiniPascal.Proofs.Inventory
import MiniPascal.Token.Ring
import MiniPascal.Proofs.Window.Lookback
