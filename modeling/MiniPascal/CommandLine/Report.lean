import MiniPascal.Source.Lexer
import MiniPascal.Syntax.Program
import MiniPascal.Text.Columns

/-!
# Reports

What the program writes about a source text: a **listing** of its tokens, one a line in columns, and
**statistics** of its tree.
-/

namespace MiniPascal

namespace Report

/-- A token in columns: its position, the label of its kind, and the token as it is written. The
last column is not filled up, and the line is ended. -/
def tokenLine (token : Token) : String :=
  alignRight 4 (toString token.pos.line) ++ ":" ++ alignLeft 4 (toString token.pos.column) ++ " " ++
    alignLeft 10 token.kind.label ++ " " ++ token.display ++ "\n"

/-- A listing of tokens, one a line, in their order. Each line has its own ending, so there is no
heading and no empty line. It is shown before the text is parsed, so there is one for every text. -/
def listing (tokens : List Token) : String :=
  String.join (tokens.map tokenLine)

/-- A time in seconds, to the nearest thousandth and always with three decimals. A half is rounded
up. The time comes in nanoseconds, as the clock of a host counts them. -/
def seconds (nanoseconds : Nat) : String :=
  let thousandths := (nanoseconds + 500000) / 1000000
  let decimals := toString (thousandths % 1000)
  let zeros := String.ofList (List.replicate (3 - decimals.length) '0')
  toString (thousandths / 1000) ++ "." ++ zeros ++ decimals

/-- Numbers about a source text and its tree, which are taken where the program is parsed and shown
after it has been printed. `Statistics.of` takes them from a text and its program. -/
structure Statistics where
  tokens : Nat
  nodes : Nat
  /-- The number of declarations in the outermost block. -/
  declarations : Nat
  /-- How long it took to parse the text, in nanoseconds. -/
  parseTime : Nat
deriving DecidableEq, Repr

/-- The statistics of a text and the program that it holds. Tokens are counted as in a listing, with
the one for the end, and only outermost declarations count. -/
def Statistics.of (text : String) (program : Program) (parseTime : Nat) : Statistics where
  tokens := (scan text).length
  nodes := program.size
  declarations := program.block.vars.length + program.block.routines.length
  parseTime := parseTime

/-- Statistics as text, in four lines: the tokens, the nodes, the declarations and the time, each
behind its name. The numbers stand in one column. -/
def Statistics.display (s : Statistics) : String :=
  "Tokens:       " ++ toString s.tokens ++ "\n" ++
  "Nodes:        " ++ toString s.nodes ++ "\n" ++
  "Declarations: " ++ toString s.declarations ++ "\n" ++
  "Parse time:   " ++ seconds s.parseTime ++ "s\n"

end Report

end MiniPascal
