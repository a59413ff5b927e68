import MiniPascal.Ty

/-!
# Kinds of tokens

A token is a name, a literal of one of the types, a **fixed lexeme** or a stream marker. The fixed
lexemes are the words that name types, the keywords, the operators and the punctuation marks:
each kind among them has one spelling (`Kind.spelling?`), and letter case does not matter in the
spelling of a word.

`Kind.ofWord?` and `Kind.ofSymbol?` read spellings back. The boolean literals `true` and `false`
are the only words whose kind has no spelling of its own.
-/

namespace MiniPascal

/-- The reserved words that give a program its structure, those of statements for reading and
writing among them. Words that name types or operators are apart. -/
inductive Keyword where
  | program
  | var
  | procedure
  | function
  | begin
  | end
  | if
  | then
  | else
  | while
  | do
  | repeat
  | until
  | for
  | to
  | downto
  | write
  | writeln
  | read
deriving DecidableEq, Repr

/-- The operators of expressions, in order of their listing and not of their precedence: that is the
business of the grammar (`Level`). Signs and `not` can stand before one operand. -/
inductive Operator where
  | plus
  | minus
  | times
  | divide
  | equal
  | notEqual
  | less
  | lessEqual
  | greater
  | greaterEqual
  | not
  | and
  | or
  | mod
deriving DecidableEq, Repr

/-- The punctuation marks, which are spelled with one or two characters. The assignment is among
them, since it makes a statement and no expression. -/
inductive Mark where
  | assign
  | semicolon
  | period
  | comma
  | colon
  | openParen
  | closeParen
deriving DecidableEq, Repr

/-- The kind of a token. Fixed lexemes have a kind each, names and the literals of each type share
one, and two kinds stand for what is no lexeme: the end and an error. -/
inductive Kind where
  /-- A name. -/
  | ident
  /-- A literal of the given type. -/
  | literal (ty : Ty)
  /-- The reserved word that names the given type. -/
  | typeName (ty : Ty)
  | keyword (word : Keyword)
  | operator (op : Operator)
  | mark (mark : Mark)
  /-- The end of the input. -/
  | eof
  /-- A lexical error. -/
  | error
deriving DecidableEq, Repr

/-! ### Spellings -/

/-- The spelling of a keyword, in lower case. A source text may use any letter case
(`Kind.ofWord?`); a printed program uses this one. -/
def Keyword.spelling : Keyword → String
  | .program => "program"
  | .var => "var"
  | .procedure => "procedure"
  | .function => "function"
  | .begin => "begin"
  | .end => "end"
  | .if => "if"
  | .then => "then"
  | .else => "else"
  | .while => "while"
  | .do => "do"
  | .repeat => "repeat"
  | .until => "until"
  | .for => "for"
  | .to => "to"
  | .downto => "downto"
  | .write => "write"
  | .writeln => "writeln"
  | .read => "read"

/-- The spelling of an operator, in lower case if it is a word. Messages quote it, and `Kind.words`
and `Kind.ofSymbol?` recognise it in a source text. -/
def Operator.spelling : Operator → String
  | .plus => "+"
  | .minus => "-"
  | .times => "*"
  | .divide => "/"
  | .equal => "="
  | .notEqual => "<>"
  | .less => "<"
  | .lessEqual => "<="
  | .greater => ">"
  | .greaterEqual => ">="
  | .not => "not"
  | .and => "and"
  | .or => "or"
  | .mod => "mod"

/-- The spelling of a punctuation mark, which is the only text that stands for it. Messages quote
it, and the printer writes it. -/
def Mark.spelling : Mark → String
  | .assign => ":="
  | .semicolon => ";"
  | .period => "."
  | .comma => ","
  | .colon => ":"
  | .openParen => "("
  | .closeParen => ")"

/-- All keywords, so that a word can be looked up among them and a property of each can be decided
(`Keyword.mem_all`). The order is that of the listing. -/
def Keyword.all : List Keyword :=
  [.program, .var, .procedure, .function, .begin, .end, .if, .then, .else, .while, .do, .repeat,
    .until, .for, .to, .downto, .write, .writeln, .read]

/-- All operators, words and symbols together, so that a property of each can be decided
(`Operator.mem_all`). The order is that of the listing. -/
def Operator.all : List Operator :=
  [.plus, .minus, .times, .divide, .equal, .notEqual, .less, .lessEqual, .greater, .greaterEqual,
    .not, .and, .or, .mod]

/-- All punctuation marks, so that a property of each can be decided (`Mark.mem_all`). -/
def Mark.all : List Mark :=
  [.assign, .semicolon, .period, .comma, .colon, .openParen, .closeParen]

/-- Every keyword is listed. -/
theorem Keyword.mem_all (word : Keyword) : word ∈ all := by
  cases word <;> decide

/-- Every operator is listed. -/
theorem Operator.mem_all (op : Operator) : op ∈ all := by
  cases op <;> decide

/-- Every punctuation mark is listed. -/
theorem Mark.mem_all (mark : Mark) : mark ∈ all := by
  cases mark <;> decide

namespace Kind

/-- The one spelling of a kind of fixed lexemes; none for a kind whose text varies, such as names
and literals, and none for the end and for errors. -/
def spelling? : Kind → Option String
  | .typeName ty => some ty.spelling
  | .keyword word => some word.spelling
  | .operator op => some op.spelling
  | .mark m => some m.spelling
  | .ident | .literal _ | .eof | .error => none

/-- Whether tokens of this kind are literals, of whatever type. Messages describe them by their kind
and their text. The boolean literals are among them. -/
def isLiteral : Kind → Bool
  | .literal _ => true
  | _ => false

/-- How a message names the kind: a fixed lexeme by its spelling in quotes, and any other kind by a
description, in which a literal goes by its type. -/
def display (kind : Kind) : String :=
  match kind.spelling? with
  | some text => "'" ++ text ++ "'"
  | none =>
    match kind with
    | .ident => "identifier"
    | .literal ty => ty.spelling ++ " literal"
    | .eof => "end of input"
    | _ => "lexical error"

/-! ### Reading spellings back -/

/-- The kinds of fixed lexemes that are spelled as words: the keywords, the names of types, and the
operators that are no symbols. `ofWord?` looks a word up in this list. -/
def words : List Kind :=
  Keyword.all.map .keyword ++ Ty.all.map .typeName ++
    [.operator .not, .operator .and, .operator .or, .operator .mod]

/-- The kind of a reserved word, in any letter case; none for a word that is free to be a name. The
boolean literals are reserved, too. -/
def ofWord? (word : String) : Option Kind :=
  let lower := word.toLower
  if lower = "true" ∨ lower = "false" then some (.literal .boolean)
  else words.find? fun kind => kind.spelling? = some lower

/-- The kind of a symbol of one or two characters; none for other texts. A lone `:` is a symbol,
although it is the beginning of a longer one. -/
def ofSymbol? : List Char → Option Kind
  | ['+'] => some (.operator .plus)
  | ['-'] => some (.operator .minus)
  | ['*'] => some (.operator .times)
  | ['/'] => some (.operator .divide)
  | ['='] => some (.operator .equal)
  | ['<', '>'] => some (.operator .notEqual)
  | ['<'] => some (.operator .less)
  | ['<', '='] => some (.operator .lessEqual)
  | ['>'] => some (.operator .greater)
  | ['>', '='] => some (.operator .greaterEqual)
  | [':', '='] => some (.mark .assign)
  | [';'] => some (.mark .semicolon)
  | ['.'] => some (.mark .period)
  | [','] => some (.mark .comma)
  | [':'] => some (.mark .colon)
  | ['('] => some (.mark .openParen)
  | [')'] => some (.mark .closeParen)
  | _ => none

/-- A word of a fixed lexeme has its lower case as spelling. -/
theorem spelling?_of_ofWord? {word : String} {kind : Kind} (h : ofWord? word = some kind)
    (fixed : kind.isLiteral = false) : kind.spelling? = some word.toLower := by
  rw [ofWord?] at h
  split at h
  · cases h
    simp [isLiteral] at fixed
  · simpa using List.find?_some h

/-- A symbol is the spelling of its kind. -/
theorem spelling?_of_ofSymbol? {symbol : List Char} {kind : Kind}
    (h : ofSymbol? symbol = some kind) : kind.spelling? = some (String.ofList symbol) := by
  unfold ofSymbol? at h
  split at h <;> cases h <;> simp [spelling?, Operator.spelling, Mark.spelling]

/-! ### Labels -/

/-- All kinds, put together from the types, the words, the symbols and the few others, so that a
property of each can be decided (`mem_all`). -/
def all : List Kind :=
  [.ident] ++ Ty.all.map .literal ++ words ++
    (Operator.all.map Kind.operator).filter (· ∉ words) ++ Mark.all.map .mark ++ [.eof, .error]

/-- The **label** of a kind in a listing of tokens: one capitalised word. The label of a literal
begins with a letter of its own, which tells it from the word that names its type. -/
def label : Kind → String
  | .ident => "Ident"
  | .literal ty => "L" ++ ty.spelling.capitalize
  | .typeName ty => ty.spelling.capitalize
  | .keyword word => word.spelling.capitalize
  | .operator op =>
    match op with
    | .plus => "Add"
    | .minus => "Sub"
    | .times => "Mul"
    | .divide => "Div"
    | .equal => "Eq"
    | .notEqual => "Neq"
    | .less => "Lt"
    | .lessEqual => "Leq"
    | .greater => "Gt"
    | .greaterEqual => "Geq"
    | .not => "Not"
    | .and => "And"
    | .or => "Or"
    | .mod => "Mod"
  | .mark m =>
    match m with
    | .assign => "Assign"
    | .semicolon => "Semi"
    | .period => "Period"
    | .comma => "Comma"
    | .colon => "Colon"
    | .openParen => "Open"
    | .closeParen => "Close"
  | .eof => "Eof"
  | .error => "Error"

/-- The kind with the given label, by a search through all of them. It is the way back from a
listing to the kinds of its tokens. -/
def ofLabel? (label : String) : Option Kind :=
  all.find? fun kind => kind.label = label

/-- Every kind is listed. -/
theorem mem_all (kind : Kind) : kind ∈ all := by
  cases kind with
  | ident | eof | error => decide
  | literal ty | typeName ty => cases ty <;> decide
  | keyword word => cases word <;> decide
  | operator op => cases op <;> decide
  | mark m => cases m <;> decide

end Kind

/-- The type that a reserved word names; none for any other kind. The parser asks it of the token
that it has read as the name of a type. -/
def Ty.ofKind? : Kind → Option Ty
  | .typeName ty => some ty
  | _ => none

/-- A type is named by its own reserved word only. -/
theorem Ty.ofKind?_eq_some_iff {kind : Kind} {ty : Ty} :
    ofKind? kind = some ty ↔ kind = .typeName ty := by
  constructor
  · intro h
    unfold ofKind? at h
    split at h <;> cases h
    rfl
  · rintro rfl
    rfl

end MiniPascal
