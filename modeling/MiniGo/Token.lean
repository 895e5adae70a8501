import MiniGo.Operator
import MiniGo.Text.Location

/-!
# Tokens

A token is a word of the language, the text it was read from and the place of that text. Words are
keywords, names, literals, brackets and marks, operators, and the end of the input. A line break that
ends a statement is a semicolon too, an implicit one.
-/

namespace MiniGo

inductive Keyword where
  | breakWord
  | caseWord
  | constWord
  | continueWord
  | defaultWord
  | elseWord
  | forWord
  | funcWord
  | ifWord
  | importWord
  | packageWord
  | returnWord
  | switchWord
  | varWord
deriving DecidableEq, Repr

namespace Keyword

def spelling : Keyword → String
  | breakWord => "break"
  | caseWord => "case"
  | constWord => "const"
  | continueWord => "continue"
  | defaultWord => "default"
  | elseWord => "else"
  | forWord => "for"
  | funcWord => "func"
  | ifWord => "if"
  | importWord => "import"
  | packageWord => "package"
  | returnWord => "return"
  | switchWord => "switch"
  | varWord => "var"

def all : List Keyword :=
  [breakWord, caseWord, constWord, continueWord, defaultWord, elseWord, forWord, funcWord, ifWord,
   importWord, packageWord, returnWord, switchWord, varWord]

def ofSpelling? (text : String) : Option Keyword :=
  all.find? fun keyword => keyword.spelling == text

theorem mem_all (keyword : Keyword) : keyword ∈ all := by cases keyword <;> decide

theorem ofSpelling?_spelling (keyword : Keyword) : ofSpelling? keyword.spelling = some keyword := by
  cases keyword <;> decide

end Keyword

/-- Brackets, separators and other marks that stand for nothing but themselves. -/
inductive Mark where
  | leftParen
  | rightParen
  | leftBrace
  | rightBrace
  | leftBracket
  | rightBracket
  | comma
  | colon
  | dot
  /-- The mark of a plain assignment. -/
  | assign
  /-- The mark of a short declaration. -/
  | define
  | bang
  | increment
  | decrement
deriving DecidableEq, Repr

/-- Brackets and separators, as opposed to operators. -/
def Mark.isPunctuation : Mark → Bool
  | assign | define | bang | increment | decrement => false
  | _ => true

/-- The words of the language. -/
inductive Word where
  | keyword (keyword : Keyword)
  | identifier (name : String)
  /-- The magnitude of an integer literal, below `2 ^ 64`; a sign in front is a word of its own. -/
  | integer (magnitude : Nat)
  | float (value : Float)
  /-- The text that a string literal stands for. -/
  | string (value : String)
  | mark (mark : Mark)
  /-- A semicolon; an implicit one stands for a line break. -/
  | semicolon (implicit : Bool)
  | operator (op : BinaryOp)
  /-- An arithmetic operator joined with an assignment. -/
  | compound (op : BinaryOp)
  | endOfInput

inductive WordKind where
  | identifier
  | integerLiteral
  | floatLiteral
  | stringLiteral
  | keyword
  | operator
  | punctuation
  | endOfInput
deriving DecidableEq, Repr

def WordKind.name : WordKind → String
  | .identifier => "Identifier"
  | .integerLiteral => "IntegerLiteral"
  | .floatLiteral => "FloatLiteral"
  | .stringLiteral => "StringLiteral"
  | .keyword => "Keyword"
  | .operator => "Operator"
  | .punctuation => "Punctuation"
  | .endOfInput => "EndOfInput"

namespace Word

def kind : Word → WordKind
  | keyword _ => .keyword
  | identifier _ => .identifier
  | integer _ => .integerLiteral
  | float _ => .floatLiteral
  | string _ => .stringLiteral
  | mark sign => if sign.isPunctuation then .punctuation else .operator
  | semicolon _ => .punctuation
  | operator _ | compound _ => .operator
  | endOfInput => .endOfInput

def endsStatement : Word → Bool
  | identifier _ | integer _ | float _ | string _ => true
  | keyword .returnWord | keyword .breakWord | keyword .continueWord => true
  | mark .increment | mark .decrement => true
  | mark .rightParen | mark .rightBracket | mark .rightBrace => true
  | _ => false

/-- The marks and operators with their spellings, each before all of its own beginnings, so that
the first that matches is the longest. -/
def fixed : List (String × Word) :=
  [("&^=", compound .bitClear), ("<<=", compound .shiftLeft), (">>=", compound .shiftRight),
   (":=", mark .define), ("==", operator .equal), ("!=", operator .notEqual),
   ("<=", operator .lessEqual), (">=", operator .greaterEqual),
   ("&&", operator .and), ("||", operator .or), ("&^", operator .bitClear),
   ("<<", operator .shiftLeft), (">>", operator .shiftRight),
   ("++", mark .increment), ("--", mark .decrement),
   ("+=", compound .add), ("-=", compound .subtract), ("*=", compound .multiply),
   ("/=", compound .divide), ("%=", compound .remainder), ("&=", compound .bitAnd),
   ("|=", compound .bitOr), ("^=", compound .bitXor),
   ("(", mark .leftParen), (")", mark .rightParen), ("\x7b", mark .leftBrace),
   ("\x7d", mark .rightBrace), ("[", mark .leftBracket), ("]", mark .rightBracket),
   (",", mark .comma), (";", semicolon false), (":", mark .colon), (".", mark .dot),
   ("=", mark .assign), ("!", mark .bang),
   ("+", operator .add), ("-", operator .subtract), ("*", operator .multiply),
   ("/", operator .divide), ("%", operator .remainder), ("&", operator .bitAnd),
   ("|", operator .bitOr), ("^", operator .bitXor),
   ("<", operator .less), (">", operator .greater)]

end Word

/-- A word, its text in the source and the place where that text begins. -/
structure Token where
  word : Word
  lexeme : String
  location : Location

namespace Token

def isImplicit (token : Token) : Bool :=
  match token.word with
  | .semicolon implicit => implicit
  | _ => false

/-- What a message calls a token. -/
def describe (token : Token) : String :=
  match token.word with
  | .endOfInput => "end of file"
  | .semicolon true => "newline"
  | .identifier name => s!"name {name}"
  | .integer _ | .float _ | .string _ => s!"literal {token.lexeme}"
  | .keyword _ => s!"keyword {token.lexeme}"
  | _ => s!"'{token.lexeme}'"

/-- The line of a listing: place, kind and text, separated by tabs. -/
def listing (token : Token) : String :=
  let shown := if token.isImplicit then "\\n" else token.lexeme
  s!"{token.location.render}\t{token.word.kind.name}\t{shown}"

end Token

end MiniGo
