/-!
# Layout of printed source

Printed source is laid out in lines. A line **begins** with a line feed and its indentation, three
blanks a level, and ends where the next one begins.
-/

namespace MiniPascal

namespace Layout

/-- The number of blanks by which a level is indented. Nothing but the look of a printed program
depends on it. It is the same for declarations and statements. -/
def indentWidth : Nat := 3

/-- The indentation at a level, which is all blanks: the width of one level as many times as the
level says. The outermost level has none. -/
def indent (level : Nat) : String :=
  String.ofList (List.replicate (indentWidth * level) ' ')

/-- A text on a line of its own, at a level. The line feed stands before it, so that what was
printed before stays as it is. No line is ended where it is printed. -/
def line (level : Nat) (text : String) : String :=
  "\n" ++ indent level ++ text

/-- A text between the lines `begin` and `end`, which stand at a level. The text itself, in lines
that are mostly deeper, is taken as it is. Bodies of blocks, branches and loops are printed like
this. -/
def enclose (level : Nat) (inner : String) : String :=
  line level "begin" ++ inner ++ line level "end"

/-- Texts with commas between them, and a blank behind each comma. Nothing is put around them. -/
def commaSeparated (texts : List String) : String :=
  ", ".intercalate texts

/-- Texts with commas between them, in parentheses, which are there even if there is no text. -/
def parenthesized (texts : List String) : String :=
  "(" ++ commaSeparated texts ++ ")"

end Layout

end MiniPascal
