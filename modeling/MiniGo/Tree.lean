import MiniGo.Operator
import MiniGo.Ty
import MiniGo.Text.Location

/-!
# Programs as trees

A source file is a package name, imports and declarations. Functions are declared at the top of a
file only; inside functions they are literals. Every node that a message can point at carries its
place.
-/

namespace MiniGo

/-- A parameter of a function. -/
structure Parameter where
  name : String
  type : Ty

/-- The parameters and results of a function. The names of the results are either all given or none
is. -/
structure Signature where
  params : List Parameter
  results : List Ty
  resultNames : List String

def Signature.type (signature : Signature) : FuncType where
  params := signature.params.map (·.type)
  results := signature.results

mutual

/-- An expression. -/
inductive Expr where
  | integer (value : Int64)
  | float (value : Float)
  | string (value : String)
  | identifier (name : String) (location : Location)
  /-- A name of another package, behind a point. -/
  | qualified (package name : String) (location : Location)
  | binary (left : Expr) (op : BinaryOp) (right : Expr) (location : Location)
  | unary (op : UnaryOp) (operand : Expr) (location : Location)
  | call (callee : Expr) (args : List Expr) (location : Location)
  | function (literal : FunctionLiteral)

/-- A function without a name. -/
structure FunctionLiteral where
  signature : Signature
  body : List Stmt
  location : Location

/-- A declaration of variables or constants. -/
structure ValueDecl where
  isConst : Bool
  names : List String
  type? : Option Ty
  values : List Expr
  location : Location

structure IfStmt where
  init : Option Stmt
  condition : Expr
  body : List Stmt
  orElse : ElseBranch
  location : Location

/-- What follows the body of a conditional statement. -/
inductive ElseBranch where
  | absent
  | block (body : List Stmt)
  | chain (next : IfStmt)

/-- What selects a case: one of some values, or that no other case was selected. -/
inductive CaseLabel where
  | values (values : List Expr)
  | otherwise

/-- A case of a switch statement. -/
structure SwitchCase where
  label : CaseLabel
  body : List Stmt
  location : Location

inductive Stmt where
  | declare (decl : ValueDecl)
  /-- A short declaration: names not yet declared in the scope are declared, the others assigned. -/
  | define (names : List String) (values : List Expr) (location : Location)
  | assign (targets : List String) (values : List Expr) (location : Location)
  /-- An assignment joined with an operator. -/
  | compound (target : String) (op : BinaryOp) (value : Expr) (location : Location)
  /-- An increment, or a decrement. -/
  | step (target : String) (up : Bool) (location : Location)
  | ifElse (statement : IfStmt)
  | loop (init : Option Stmt) (condition : Option Expr) (post : Option Stmt) (body : List Stmt)
      (location : Location)
  | switch (init : Option Stmt) (tag : Option Expr) (cases : List SwitchCase) (location : Location)
  | return (values : List Expr) (location : Location)
  | break (location : Location)
  | continue (location : Location)
  | block (body : List Stmt)
  | expression (expr : Expr)

end

instance : Inhabited Expr := ⟨.integer 0⟩

instance : Inhabited Stmt := ⟨.block []⟩

/-- A declaration at the top of a file. -/
inductive Decl where
  | function (name : String) (literal : FunctionLiteral)
  | values (decl : ValueDecl)

/-- An import of a package, under another name if one is given. -/
structure Import where
  alias? : Option String
  path : String
  location : Location

structure Program where
  package : String
  imports : List Import
  declarations : List Decl

namespace Expr

/-- The place of an expression; literals other than functions carry none. -/
def location? : Expr → Option Location
  | integer _ | float _ | string _ => none
  | identifier _ location | qualified _ _ location => some location
  | binary _ _ _ location | unary _ _ location | call _ _ location => some location
  | function literal => some literal.location

def isCall : Expr → Bool
  | call _ _ _ => true
  | _ => false

/-- An integer constant without a declared type, such as `1` or `-(2 * 3)`. Where a float is
expected it becomes one. -/
def isUntypedInteger : Expr → Bool
  | integer _ => true
  | unary .negate operand _ | unary .plus operand _ => operand.isUntypedInteger
  | binary left op right _ => op.isArithmetic && left.isUntypedInteger && right.isUntypedInteger
  | _ => false

end Expr

def blankName : String := "_"

def ValueDecl.bound (decl : ValueDecl) : List String :=
  decl.names.filter (· != blankName)

def Program.valueDecls (program : Program) : List ValueDecl :=
  program.declarations.filterMap fun
    | .values decl => some decl
    | .function .. => none

def Program.functions (program : Program) : List (String × FunctionLiteral) :=
  program.declarations.filterMap fun
    | .function name literal => some (name, literal)
    | .values _ => none

end MiniGo
