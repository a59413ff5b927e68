/-!
# The lines of a text

A line feed **ends** a line. A carriage return right before it belongs to the ending and not to the
line. What follows the last line feed is one more line, kept as it stands, unless it is empty: a
text that ends in a line feed has no empty last line, and the empty text has no line at all.
-/

namespace MiniPascal

/-- The lines of a text, without their endings. A line ends with a line feed, or with a carriage
return and a line feed together; a last line that is not ended counts if it is not empty. -/
def linesOf : List Char → List (List Char)
  | [] => []
  | '\n' :: cs => [] :: linesOf cs
  | '\r' :: '\n' :: cs => [] :: linesOf cs
  | c :: cs =>
    match linesOf cs with
    | [] => [[c]]
    | line :: rest => (c :: line) :: rest

/-- The number of lines of a text, where even the empty text counts as one line. It is what a
diagnostic says about the size of its file. -/
def lineCount (text : List Char) : Nat :=
  max 1 (linesOf text).length

/-- Every text has a line. -/
theorem one_le_lineCount (text : List Char) : 1 ≤ lineCount text :=
  Nat.le_max_left ..

end MiniPascal
