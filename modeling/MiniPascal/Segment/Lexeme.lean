import MiniPascal.Segment.Basic
import MiniPascal.Text.Alphabetic
import MiniPascal.Text.Numeric

/-!
# Lexemes

For each class of lexemes: how far one reaches, once its first character is known. Every function
here takes the text **after** the first character and gives the form of the segment together with
the further characters that belong to it. These always stand at the beginning of the text.

* A **word** goes on as long as its characters may stand inside a name.
* A **numeral** has digits, then a fraction if a digit follows the point, then an exponent if a
  digit follows the letter and the sign. What would begin such a part without a digit is left over.
* A **string** ends at the next double quote on its line.
* A **character** stands between single quotes on one line, and a single quote is written twice.
* A **symbol** has two characters if they are one together, else one.
-/

namespace MiniPascal

namespace Segment

/-! ### Words -/

/-- Whether a name may begin with the character: an alphabetic character of any script, or an
underscore. -/
def isNameStart (c : Char) : Bool :=
  isAlphabetic c || c = '_'

/-- Whether the character may stand inside a name: what a name may begin with, and numeric
characters of any script. -/
def isNamePart (c : Char) : Bool :=
  isAlphabetic c || isNumeric c || c = '_'

/-- The kind of a word: that of the reserved word, in whatever letter case it is written, and
otherwise a name. -/
def wordKind (word : String) : Kind :=
  (Kind.ofWord? word).getD .ident

/-- A word that begins with `c`: it goes on as long as characters of names follow, and only then it
is looked up among the reserved ones. -/
def word (c : Char) (cs : List Char) : Form × List Char :=
  let more := cs.takeWhile isNamePart
  let text := String.ofList (c :: more)
  (.lexeme (wordKind text) text, more)

/-! ### Numerals -/

/-- The digits at the beginning of a text, as many as there are. Only those of ASCII count. -/
def digits (cs : List Char) : List Char :=
  cs.takeWhile Char.isDigit

/-- The fraction at the beginning of a text: a point and digits, or nothing. A point without digits
behind it is left for the next segment. -/
def fraction : List Char → List Char
  | '.' :: cs => if digits cs = [] then [] else '.' :: digits cs
  | _ => []

/-- The sign at the beginning of a text, or nothing. It is only looked for in an exponent; the sign
of a whole numeral is an operator. -/
def sign : List Char → List Char
  | '+' :: _ => ['+']
  | '-' :: _ => ['-']
  | _ => []

/-- The exponent at the beginning of a text: a letter, an optional sign and digits, or nothing.
Without digits, letter and sign are left for the next segments. -/
def exponent : List Char → List Char
  | [] => []
  | e :: cs =>
    let power := digits (cs.drop (sign cs).length)
    if (e = 'e' ∨ e = 'E') ∧ power ≠ [] then e :: (sign cs ++ power) else []

/-- A numeral that begins with `c`: digits, then a fraction, then an exponent, each as long as it
can be. It is real if it has a fraction or an exponent. -/
def numeral (c : Char) (cs : List Char) : Form × List Char :=
  let whole := digits cs
  let part := fraction (cs.drop whole.length)
  let power := exponent (cs.drop (whole ++ part).length)
  let more := whole ++ part ++ power
  let ty : Ty := if part = [] ∧ power = [] then .integer else .real
  (.lexeme (.literal ty) (String.ofList (c :: more)), more)

/-! ### Quoted literals -/

/-- The text up to a quote character or the end of the line, whichever comes first; the one that
comes is not part of it. A literal never goes on beyond its line. -/
def upTo (quote : Char) (cs : List Char) : List Char :=
  cs.takeWhile fun c => c ≠ quote && c ≠ '\n'

/-- A string, after its opening quote: the value up to the closing one, which has no escapes. If the
line ends first, what there is of the value is faulty. -/
def string (cs : List Char) : Form × List Char :=
  let value := upTo '"' cs
  match cs.drop value.length with
  | '"' :: _ => (.lexeme (.literal .string) (String.ofList value), value ++ ['"'])
  | _ => (.fault .openString, value)

/-- The end of a character literal, after the value `c`. A value that the closing quote does not
follow is too long, and the literal then reaches to the next quote on the line. -/
def charEnd (c : Char) (cs : List Char) : Form × List Char :=
  match cs with
  | '\'' :: _ => (.lexeme (.literal .char) (String.singleton c), ['\''])
  | _ =>
    let extra := upTo '\'' cs
    match cs.drop extra.length with
    | '\'' :: _ => (.fault .longChar, extra ++ ['\''])
    | _ => (.fault .longChar, extra)

/-- A character literal, after its opening quote. Two quotes stand for the value that is a quote, so
that a single one closes an empty literal. -/
def char (cs : List Char) : Form × List Char :=
  match cs with
  | [] | '\n' :: _ => (.fault .openChar, [])
  | '\'' :: '\'' :: rest => ((charEnd '\'' rest).1, '\'' :: '\'' :: (charEnd '\'' rest).2)
  | '\'' :: _ => (.fault .emptyChar, ['\''])
  | c :: rest => ((charEnd c rest).1, c :: (charEnd c rest).2)

/-! ### Symbols -/

/-- A symbol of the one character `c`, if it is one. Any other character that begins no lexeme is a
fault by itself. -/
def shortSymbol (c : Char) : Form × List Char :=
  match Kind.ofSymbol? [c] with
  | some kind => (.lexeme kind (String.singleton c), [])
  | none => (.fault (.unknownSymbol c), [])

/-- A symbol that begins with `c`. One of two characters is preferred, so that `<=` is not read as
two symbols. -/
def symbol (c : Char) (cs : List Char) : Form × List Char :=
  match cs with
  | [] => shortSymbol c
  | d :: _ =>
    match Kind.ofSymbol? [c, d] with
    | some kind => (.lexeme kind (String.ofList [c, d]), [d])
    | none => shortSymbol c

/-! ### Comments -/

/-- The text up to and including the first occurrence of a closing lexeme, if there is one. The
lexeme is not escaped by anything. -/
def through (close : List Char) : List Char → Option (List Char)
  | [] => none
  | c :: cs =>
    if close.isPrefixOf (c :: cs) then some close else (through close cs).map (c :: ·)

/-- A comment, after its opening lexeme. It ends with the first closing lexeme, so comments do not
nest. One that is not closed takes the rest of the text. -/
def comment (close : List Char) (cs : List Char) : Form × List Char :=
  match through close cs with
  | some body => (.comment, body)
  | none => (.fault .openComment, cs)

end Segment

end MiniPascal
