import Mathlib
import MiniGo.Check.Terminating
import MiniGo.Tree.Parser

/-!
# Trees that the grammar has

Trees hold more than the grammar gives: a loop could end its rounds with a declaration, an integer
could be negative, a name could be a keyword. `Formed` says what the reader promises of the trees it
gives beyond their shape.
-/

namespace MiniGo.Syntax

/-- A text that is read as a name. -/
structure IsName (name : String) : Prop where
  spelled : ∃ first rest, name.toList = first :: rest ∧ CharClass.startsName first = true ∧
    ∀ c ∈ rest, CharClass.continuesName c = true
  free : Keyword.ofSpelling? name = none

/-- An integer that a literal can stand for: the smallest one is read together with its sign. -/
def IsLiteral (value : Int64) : Prop := 0 ≤ value ∨ value = Int64.minValue

/-- A float that a literal can stand for. -/
def IsDecimal (value : Float) : Prop := ∃ digits exponent, value = Decimal.toFloat digits exponent

/-- A word that the lexer gives. -/
def WordFormed : Word → Prop
  | .identifier name => IsName name
  | .integer magnitude => magnitude < UInt64.size
  | .float value => IsDecimal value
  | .compound op => op.isArithmetic = true
  | _ => True

/-- A statement that may stand in a header. -/
def isSimple : Stmt → Bool
  | .define .. | .assign .. | .compound .. | .step .. | .expression _ => true
  | _ => false

/-- A statement that declares nothing. -/
def isSilent : Stmt → Bool
  | .define .. | .declare _ => false
  | _ => true

namespace Formed

mutual

/-- A type that is read back as itself. -/
def type : Ty → Prop
  | .named name => IsName name ∧ Ty.ofName name = .named name
  | .func found => funcType found
  | _ => True

def funcType : FuncType → Prop
  | ⟨params, results⟩ => types params ∧ types results

/-- Types that are read back. -/
def types : List Ty → Prop
  | [] => True
  | first :: rest => type first ∧ types rest

end

/-- A signature whose results are all named or all unnamed. -/
def signature (found : Signature) : Prop :=
  (∀ param ∈ found.params, IsName param.name ∧ type param.type) ∧ types found.results ∧
  (∀ name ∈ found.resultNames, IsName name) ∧
  (found.resultNames = [] ∨ found.resultNames.length = found.results.length)

/-- Names on the left of a declaration or an assignment. -/
def names (found : List String) : Prop := found ≠ [] ∧ ∀ name ∈ found, IsName name

/-- The type of a declaration. -/
def optionalType (found : Option Ty) : Prop := ∀ declared, found = some declared → type declared

mutual

/-- An expression that the grammar has. -/
def expr : Expr → Prop
  | .integer value => IsLiteral value
  | .float value => IsDecimal value
  | .string _ => True
  | .identifier name _ => IsName name
  | .qualified package name _ => IsName package ∧ IsName name
  | .binary left _ right _ => expr left ∧ expr right
  | .unary _ operand _ => expr operand
  | .call callee args _ => expr callee ∧ exprs args
  | .function literal => function literal

def exprs : List Expr → Prop
  | [] => True
  | first :: rest => expr first ∧ exprs rest

/-- An expression that the grammar has, if there is one. -/
def optionalExpr : Option Expr → Prop
  | none => True
  | some found => expr found

/-- A function that the grammar has. -/
def function : FunctionLiteral → Prop
  | ⟨found, body, _⟩ => signature found ∧ stmts body

/-- A declaration that the grammar has: it has a type or values, and a constant has values. -/
def valueDecl : ValueDecl → Prop
  | ⟨isConst, found, type?, values, _⟩ =>
      names found ∧ optionalType type? ∧ exprs values ∧ (isConst = true → values ≠ []) ∧
        (type? = none → values ≠ [])

def ifStmt : IfStmt → Prop
  | ⟨init, condition, body, orElse, _⟩ =>
      header init ∧ expr condition ∧ stmts body ∧ elseBranch orElse

def elseBranch : ElseBranch → Prop
  | .absent => True
  | .block body => stmts body
  | .chain next => ifStmt next

/-- The label of a case; it has a value. -/
def caseLabel : CaseLabel → Prop
  | .values values => values ≠ [] ∧ exprs values
  | .otherwise => True

def cases : List SwitchCase → Prop
  | [] => True
  | ⟨label, body, _⟩ :: rest => caseLabel label ∧ stmts body ∧ cases rest

/-- A statement that the grammar has, apart from where it may stand. -/
def stmt : Stmt → Prop
  | .declare decl => valueDecl decl
  | .define found values _ => names found ∧ values ≠ [] ∧ exprs values
  | .assign targets values _ => names targets ∧ values ≠ [] ∧ exprs values
  | .compound target op value _ => IsName target ∧ op.isArithmetic = true ∧ expr value
  | .step target _ _ => IsName target
  | .ifElse found => ifStmt found
  | .loop init condition post body _ =>
      header init ∧ optionalExpr condition ∧ header post ∧
        (∀ last, post = some last → isSilent last = true) ∧ stmts body
  | .switch init tag found _ =>
      header init ∧ optionalExpr tag ∧ cases found ∧
        (found.filter SwitchCase.isDefault).length ≤ 1
  | .return values _ => exprs values
  | .break _ | .continue _ => True
  | .block body => stmts body
  | .expression found => expr found

/-- Statements in a body; an expression among them is a call. -/
def stmts : List Stmt → Prop
  | [] => True
  | first :: rest =>
      stmt first ∧ (∀ found, first = .expression found → found.isCall = true) ∧ stmts rest

/-- A statement in a header, if there is one. -/
def header : Option Stmt → Prop
  | none => True
  | some found => stmt found ∧ isSimple found = true

end

/-- A declaration of a file. -/
def decl : Decl → Prop
  | .function name literal => IsName name ∧ function literal
  | .values found => valueDecl found

/-- An import. -/
def importSpec (found : Import) : Prop := ∀ other, found.alias? = some other → IsName other

/-- A file that the grammar has. -/
def program (found : Program) : Prop :=
  IsName found.package ∧ (∀ spec ∈ found.imports, importSpec spec) ∧
    ∀ declared ∈ found.declarations, decl declared

end Formed

end MiniGo.Syntax
