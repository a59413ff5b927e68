import MiniPascal.Parse.Stmt
import MiniPascal.Syntax.Program

/-!
# Parsing programs

    program      = "program" name ";" block "."
    block        = [ "var" var-line { var-line } ] { routine } compound
    var-line     = declaration ";"
    declaration  = name { "," name } ":" type
    routine      = "procedure" name parameters ";" block ";"
                 | "function" name parameters ":" type ";" block ";"
    parameters   = "(" [ declaration { "," declaration } ] ")"

A name that follows a line of variables begins another line. A declaration of several names stands
for one declaration of each.
-/

namespace MiniPascal

namespace Parse

/-- The name of a type, which must be one of the reserved words; there are no other types to name. A
failure lists them all. -/
def typeName : Parse Ty := do
  match Ty.ofKind? (← peek) with
  | some ty =>
    let _ ← take
    return ty
  | none => throw (.expected (Ty.all.map .typeName))

/-- Names of one type, which stands behind them. Each name becomes a declaration of its own, so the
tree does not keep which of them stood together. -/
def declaration : Parse (List VarDecl) := do
  let names ← separated .comma name
  mark .colon
  let ty ← typeName
  return names.map fun name => ⟨name, ty⟩

/-- The lines of a `var` section, each with names of one type and a semicolon. There is at least
one, and the section goes on as long as a name follows. -/
def varLines : Parse (List VarDecl) :=
  fix (fun self (_ : Unit) => do
    let decls ← declaration
    mark .semicolon
    if (← peek) = .ident then
      return decls ++ (← self ())
    else
      return decls) ()

/-- The `var` section of a block, if it has one. A block has one such section at most, before its
routines. Without the keyword there are no variables. -/
def variableSection : Parse (List VarDecl) := do
  if (← peek) = .keyword .var then
    let _ ← take
    varLines
  else
    return []

/-- A parameter list, in parentheses that may be empty but not missing. Groups of names of one type
are separated by commas. In the tree the groups are one list. -/
def parameters : Parse (List VarDecl) :=
  return (← parenthesized declaration).flatten

/-- What follows `procedure`: the name, the parameters and the block, each of the last two with a
semicolon behind it. A procedure has no result. -/
def afterProcedure (block : Parse Block) : Parse Routine := do
  let name ← name
  let params ← parameters
  mark .semicolon
  let block ← block
  mark .semicolon
  return ⟨name, params, none, block⟩

/-- What follows `function`: as for a procedure, with the type of the result behind the parameters.
The colon in front of the type must be there. -/
def afterFunction (block : Parse Block) : Parse Routine := do
  let name ← name
  let params ← parameters
  mark .colon
  let result ← typeName
  mark .semicolon
  let block ← block
  mark .semicolon
  return ⟨name, params, some result, block⟩

/-- The routines of a block, as long as `procedure` or `function` follows. The rule for their blocks
is given. Procedures and functions may come in any order. -/
def routines (block : Parse Block) : Parse (List Routine) :=
  fix (fun self (_ : Unit) => do
    match ← peek with
    | .keyword .procedure =>
      let _ ← take
      let routine ← afterProcedure block
      return routine :: (← self ())
    | .keyword .function =>
      let _ ← take
      let routine ← afterFunction block
      return routine :: (← self ())
    | _ => return []) ()

/-- A block, given the rule for the blocks within: variables, then routines, then a compound
statement. The recursion of `block` is tied here and nowhere else. -/
def blockWith (block : Parse Block) : Parse Block := do
  let vars ← variableSection
  let routines ← routines block
  let body ← compound statement
  return ⟨vars, routines, body⟩

/-- A block, in which the blocks of the routines are read by the same rule again. Its routines may
have routines of their own, to any depth. -/
def block : Parse Block :=
  fix (fun self (_ : Unit) => blockWith (self ())) ()

/-- A program, after which the input ends. A token behind the period is a failure, and it is not
taken. It is the rule from which a parser starts (`Parser.parse`). -/
def program : Parse Program := do
  keyword .program
  let name ← name
  mark .semicolon
  let block ← block
  mark .period
  if (← peek) = .eof then
    return ⟨name, block⟩
  else
    throw .unexpected

end Parse

end MiniPascal
