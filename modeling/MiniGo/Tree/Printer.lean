import MiniGo.Token
import MiniGo.Tree
import MiniGo.Decimal.Layout
import MiniGo.Text.Quoted

/-!
# Canonical source text

A program is laid out as words, blanks and line breaks, one declaration or simple statement a line,
indented by tabs. Parentheses stand only where the strengths of operators ask for them, so reading
the canonical text and laying it out again gives the same text.

The layout of a tree is a list of pieces; `Piece.render` is its text. An indentation is given to
every function that may break a line.
-/

namespace MiniGo

def Word.spelling : Word → List Char
  | .keyword found => found.spelling.toList
  | .identifier name => name.toList
  | .integer magnitude => Nat.toDigits 10 magnitude
  | .float value => (Decimal.Layout.literal.render value).toList
  | .string value => Quoted.literalChars value.toList
  | .mark found => markSpelling found
  | .semicolon true => ['\n']
  | .semicolon false => [';']
  | .operator op => op.symbol.toList
  | .compound op => op.symbol.toList ++ ['=']
  | .endOfInput => []
where
  /-- The spelling of a mark. -/
  markSpelling : Mark → List Char
    | .leftParen => ['(']
    | .rightParen => [')']
    | .leftBrace => ['\x7b']
    | .rightBrace => ['\x7d']
    | .leftBracket => ['[']
    | .rightBracket => [']']
    | .comma => [',']
    | .colon => [':']
    | .dot => ['.']
    | .assign => ['=']
    | .define => [':', '=']
    | .bang => ['!']
    | .increment => ['+', '+']
    | .decrement => ['-', '-']

/-- A piece of a canonical text. -/
inductive Piece where
  | word (word : Word)
  | blank
  /-- A line break and an indentation. -/
  | newLine (indent : Nat)

namespace Piece

def chars : Piece → List Char
  | word found => found.spelling
  | blank => [' ']
  | newLine indent => '\n' :: List.replicate indent '\t'

def render (pieces : List Piece) : String :=
  String.ofList (pieces.flatMap chars)

def key (keyword : Keyword) : Piece := word (.keyword keyword)

def sign (mark : Mark) : Piece := word (.mark mark)

def name (name : String) : Piece := word (.identifier name)

def commaSeparated : List (List Piece) → List Piece
  | [] => []
  | [pieces] => pieces
  | pieces :: more => pieces ++ sign .comma :: blank :: commaSeparated more

def inParens (pieces : List Piece) : List Piece :=
  sign .leftParen :: (pieces ++ [sign .rightParen])

def inParensIf (needed : Bool) (pieces : List Piece) : List Piece :=
  if needed then inParens pieces else pieces

end Piece

namespace Layout

open Piece

/-! ## Types and signatures -/

/-- The results of a function, with a blank in front; one result stands without parentheses. -/
def results : List (List Piece) → List Piece
  | [] => []
  | [result] => blank :: result
  | many => blank :: inParens (commaSeparated many)

mutual

/-- The layout of a type. -/
def type : Ty → List Piece
  | .int => [name "int"]
  | .float => [name "float64"]
  | .string => [name "string"]
  | .bool => [name "bool"]
  | .named found => [name found]
  | .func found => key .funcWord :: funcType found

def funcType : FuncType → List Piece
  | ⟨params, found⟩ => inParens (commaSeparated (types params)) ++ results (types found)

def types : List Ty → List (List Piece)
  | [] => []
  | first :: rest => type first :: types rest

end

def named (found : String) (declared : Ty) : List Piece :=
  name found :: blank :: type declared

def signature (signature : Signature) : List Piece :=
  let params := signature.params.map fun param => named param.name param.type
  let found :=
    if signature.resultNames.isEmpty then results (types signature.results)
    else blank :: inParens (commaSeparated (signature.resultNames.zipWith named signature.results))
  inParens (commaSeparated params) ++ found

/-! ## Expressions and statements -/

/-- The operand binds weaker than a strength. -/
def weakerThan (strength : Nat) : Expr → Bool
  | .binary _ op _ _ => op.precedence < strength
  | _ => false

/-- Behind a unary operator: an operator of either sort or a negative number needs parentheses. -/
def unaryNeedsParens : Expr → Bool
  | .binary .. | .unary .. => true
  | .integer value => value < 0
  | _ => false

/-- In front of arguments: an operator of either sort needs parentheses. -/
def calleeNeedsParens : Expr → Bool
  | .binary .. | .unary .. => true
  | _ => false

def unaryWord : UnaryOp → Word
  | .negate => .operator .subtract
  | .plus => .operator .add
  | .not => .mark .bang
  | .bitNot => .operator .bitXor

/-- The layout of an integer; a negative one is the sign and the magnitude. -/
def integer (value : Int64) : List Piece :=
  if value < 0 then [word (.operator .subtract), word (.integer value.toInt.natAbs)]
  else [word (.integer value.toInt.natAbs)]

def names (found : List String) : List Piece :=
  commaSeparated (found.map fun found => [name found])

/-- Values behind a mark, if there are any. -/
def initializer (values : List Piece) : List Piece :=
  if values.isEmpty then [] else blank :: sign .assign :: blank :: values

/-- The type of a declaration, with a blank in front. -/
def optionalType : Option Ty → List Piece
  | none => []
  | some declared => blank :: type declared

/-- The layout of a block around the lines in it, which are one step further in. -/
def braces (indent : Nat) (inner : List Piece) : List Piece :=
  sign .leftBrace :: (inner ++ [newLine indent, sign .rightBrace])

mutual

/-- The layout of an expression. -/
def expr (indent : Nat) : Expr → List Piece
  | .integer value => integer value
  | .float value => [word (.float value)]
  | .string value => [word (.string value)]
  | .identifier found _ => [name found]
  | .qualified package found _ => [name package, sign .dot, name found]
  | .binary left op right _ =>
      inParensIf (weakerThan op.precedence left) (expr indent left)
        ++ blank :: word (.operator op) :: blank
        :: inParensIf (weakerThan (op.precedence + 1) right) (expr indent right)
  | .unary op operand _ =>
      word (unaryWord op) :: inParensIf (unaryNeedsParens operand) (expr indent operand)
  | .call callee args _ =>
      inParensIf (calleeNeedsParens callee) (expr indent callee)
        ++ inParens (commaSeparated (exprs indent args))
  | .function literal => key .funcWord :: function indent literal

def exprs (indent : Nat) : List Expr → List (List Piece)
  | [] => []
  | first :: rest => expr indent first :: exprs indent rest

def function (indent : Nat) : FunctionLiteral → List Piece
  | ⟨found, body, _⟩ => signature found ++ blank :: braces indent (lines (indent + 1) body)

/-- Statements, each on a new line. -/
def lines (indent : Nat) : List Stmt → List Piece
  | [] => []
  | first :: rest => newLine indent :: (stmt indent first ++ lines indent rest)

def valueDecl (indent : Nat) : ValueDecl → List Piece
  | ⟨isConst, found, declared, values, _⟩ =>
      key (if isConst then .constWord else .varWord) :: blank :: (names found
        ++ optionalType declared ++ initializer (commaSeparated (exprs indent values)))

def ifStmt (indent : Nat) : IfStmt → List Piece
  | ⟨init, condition, body, orElse, _⟩ =>
      key .ifWord :: blank :: (headerStart indent init ++ expr indent condition
        ++ blank :: (braces indent (lines (indent + 1) body) ++ elseBranch indent orElse))

/-- The first part of a header, with a semicolon and a blank behind it. -/
def headerStart (indent : Nat) : Option Stmt → List Piece
  | none => []
  | some init => stmt indent init ++ [word (.semicolon false), blank]

/-- The layout of what follows the body of a conditional statement. -/
def elseBranch (indent : Nat) : ElseBranch → List Piece
  | .absent => []
  | .block body => blank :: key .elseWord :: blank :: braces indent (lines (indent + 1) body)
  | .chain next => blank :: key .elseWord :: blank :: ifStmt indent next

def stmt (indent : Nat) : Stmt → List Piece
  | .declare decl => valueDecl indent decl
  | .define found values _ =>
      names found ++ blank :: sign .define :: blank :: commaSeparated (exprs indent values)
  | .assign targets values _ =>
      names targets ++ blank :: sign .assign :: blank :: commaSeparated (exprs indent values)
  | .compound target op value _ =>
      name target :: blank :: word (.compound op) :: blank :: expr indent value
  | .step target up _ => [name target, sign (if up then .increment else .decrement)]
  | .ifElse found => ifStmt indent found
  | .loop none none none body _ => key .forWord :: blank :: braces indent (lines (indent + 1) body)
  | .loop none (some condition) none body _ =>
      key .forWord :: blank :: (expr indent condition ++ blank :: braces indent (lines (indent + 1) body))
  | .loop init condition post body _ =>
      key .forWord :: blank :: (optionalStmt indent init ++ word (.semicolon false) :: blank
        :: (optionalExpr indent condition ++ word (.semicolon false) :: (loopPost indent post
        ++ blank :: braces indent (lines (indent + 1) body))))
  | .switch init tag cases _ =>
      key .switchWord :: (switchStart indent init ++ switchTag indent tag
        ++ blank :: sign .leftBrace :: (switchCases indent cases
        ++ [newLine indent, sign .rightBrace]))
  | .return [] _ => [key .returnWord]
  | .return values _ => key .returnWord :: blank :: commaSeparated (exprs indent values)
  | .break _ => [key .breakWord]
  | .continue _ => [key .continueWord]
  | .block body => braces indent (lines (indent + 1) body)
  | .expression found => expr indent found

/-- The layout of a statement, if there is one. -/
def optionalStmt (indent : Nat) : Option Stmt → List Piece
  | none => []
  | some found => stmt indent found

/-- The layout of an expression, if there is one. -/
def optionalExpr (indent : Nat) : Option Expr → List Piece
  | none => []
  | some found => expr indent found

/-- The last part of a header, with a blank in front. -/
def loopPost (indent : Nat) : Option Stmt → List Piece
  | none => []
  | some post => blank :: stmt indent post

/-- The first part of the header of a switch. -/
def switchStart (indent : Nat) : Option Stmt → List Piece
  | none => []
  | some init => blank :: (stmt indent init ++ [word (.semicolon false)])

/-- The tag of a switch, with a blank in front. -/
def switchTag (indent : Nat) : Option Expr → List Piece
  | none => []
  | some tag => blank :: expr indent tag

/-- The cases of a switch: labels as far in as the switch, bodies one step further. -/
def switchCases (indent : Nat) : List SwitchCase → List Piece
  | [] => []
  | first :: rest =>
      newLine indent :: (switchCase indent first ++ switchCases indent rest)

def switchCase (indent : Nat) : SwitchCase → List Piece
  | ⟨label, body, _⟩ => caseLabel indent label ++ sign .colon :: lines (indent + 1) body

def caseLabel (indent : Nat) : CaseLabel → List Piece
  | .values values => key .caseWord :: blank :: commaSeparated (exprs indent values)
  | .otherwise => [key .defaultWord]

end

/-! ## Files -/

def importSpec (found : Import) : List Piece :=
  match found.alias? with
  | some other => [name other, blank, word (.string found.path)]
  | none => [word (.string found.path)]

/-- The imports of a file, behind an empty line; several are grouped. -/
def imports : List Import → List Piece
  | [] => []
  | [single] => newLine 0 :: key .importWord :: blank :: (importSpec single ++ [newLine 0])
  | many =>
      newLine 0 :: key .importWord :: blank :: sign .leftParen
        :: (many.flatMap (fun found => newLine 1 :: importSpec found)
        ++ [newLine 0, sign .rightParen, newLine 0])

def decl : Decl → List Piece
  | .function found literal => key .funcWord :: blank :: name found :: function 0 literal
  | .values found => valueDecl 0 found

/-- The layout of a file; an empty line stands before each declaration. -/
def program (found : Program) : List Piece :=
  key .packageWord :: blank :: name found.package :: newLine 0 :: (imports found.imports
    ++ found.declarations.flatMap fun declared => newLine 0 :: (decl declared ++ [newLine 0]))

end Layout

def Program.render (program : Program) : String := Piece.render (Layout.program program)

def Expr.render (expr : Expr) : String := Piece.render (Layout.expr 0 expr)

end MiniGo
