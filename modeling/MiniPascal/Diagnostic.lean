import MiniPascal.Text.Columns
import MiniPascal.Text.Lines
import MiniPascal.Token.Position

/-!
# Diagnostics

A **diagnostic** says what is wrong with a source text and where. It is written on one line, or
rendered with the line it refers to and a caret below the column. The numbers of lines stand in a
gutter that is wide enough for the last line of the file.
-/

namespace MiniPascal

/-- What is wrong, and where: a message with a position in a file. How many lines the file has is
kept, too, so that positions can be aligned without it. -/
structure Diagnostic where
  file : String
  /-- The number of lines of the file. -/
  lineCount : Nat
  pos : Position
  message : String
deriving DecidableEq, Repr

namespace Diagnostic

/-- A diagnostic on one line: the file, line and column in parentheses, and the message. It needs no
source text. It is the short form; `render` quotes the source as well. -/
def display (d : Diagnostic) : String :=
  d.file ++ "(" ++ toString d.pos.line ++ ":" ++ toString d.pos.column ++ "): " ++ d.message

/-- The width of the gutter, to the left of the quoted line: as many digits as the number of any
line of the file may take, the quoted one included. -/
def gutter (d : Diagnostic) : Nat :=
  (toString (max d.lineCount d.pos.line)).length

/-- The line of the source that a diagnostic refers to, if the source has it. A position on line
zero, which only a token made elsewhere can have, refers to the first line. -/
def sourceLine? (d : Diagnostic) (source : String) : Option (List Char) :=
  (linesOf source.toList)[d.pos.line - 1]?

/-- A diagnostic with the line it refers to, and a caret below the column. If the source does not
have that line, only the heading is there: the message and the position. -/
def render (d : Diagnostic) (source : String) : String :=
  let margin := blanks d.gutter
  let heading :=
    "error: " ++ d.message ++ "\n" ++
    margin ++ "--> " ++ d.file ++ ":" ++ toString d.pos.line ++ ":" ++ toString d.pos.column ++ "\n"
  match d.sourceLine? source with
  | none => heading
  | some text =>
    heading ++
    margin ++ " |\n" ++
    alignRight d.gutter (toString d.pos.line) ++ " | " ++ String.ofList text ++ "\n" ++
    margin ++ " | " ++ blanks (d.pos.column - 1) ++ "^\n"

end Diagnostic

end MiniPascal
