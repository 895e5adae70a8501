import MiniGo.Proofs.Syntax.Pieces

/-!
# Trees up to places

A tree without its places tells what it stands for. `Unplaced` takes the places away and puts something
in place of each float literal: the literal itself, or what its spelling is read as, which is a name when
the float is infinite. None of this changes the text of a tree (`chars_program`).

`Everywhere` says that something holds of all expressions in a tree.
-/

namespace MiniGo.Syntax

/-! ## Trees without places -/

namespace Unplaced

variable (literal : Float → Expr)

mutual

/-- An expression without places. -/
def expr : Expr → Expr
  | .integer value => .integer value
  | .float value => literal value
  | .string value => .string value
  | .identifier name _ => .identifier name Location.nowhere
  | .qualified package name _ => .qualified package name Location.nowhere
  | .binary left op right _ => .binary (expr left) op (expr right) Location.nowhere
  | .unary op operand _ => .unary op (expr operand) Location.nowhere
  | .call callee args _ => .call (expr callee) (exprs args) Location.nowhere
  | .function found => .function (function found)

def exprs : List Expr → List Expr
  | [] => []
  | first :: rest => expr first :: exprs rest

/-- An expression without places, if there is one. -/
def optionalExpr : Option Expr → Option Expr
  | none => none
  | some found => some (expr found)

/-- A function without places. -/
def function : FunctionLiteral → FunctionLiteral
  | ⟨signature, body, _⟩ => ⟨signature, stmts body, Location.nowhere⟩

/-- A declaration without places. -/
def valueDecl : ValueDecl → ValueDecl
  | ⟨isConst, names, type?, values, _⟩ => ⟨isConst, names, type?, exprs values, Location.nowhere⟩

def ifStmt : IfStmt → IfStmt
  | ⟨init, condition, body, orElse, _⟩ =>
      ⟨optionalStmt init, expr condition, stmts body, elseBranch orElse, Location.nowhere⟩

/-- What follows the body of a conditional statement, without places. -/
def elseBranch : ElseBranch → ElseBranch
  | .absent => .absent
  | .block body => .block (stmts body)
  | .chain next => .chain (ifStmt next)

def caseLabel : CaseLabel → CaseLabel
  | .values values => .values (exprs values)
  | .otherwise => .otherwise

def switchCase : SwitchCase → SwitchCase
  | ⟨label, body, _⟩ => ⟨caseLabel label, stmts body, Location.nowhere⟩

def cases : List SwitchCase → List SwitchCase
  | [] => []
  | first :: rest => switchCase first :: cases rest

def stmt : Stmt → Stmt
  | .declare decl => .declare (valueDecl decl)
  | .define names values _ => .define names (exprs values) Location.nowhere
  | .assign targets values _ => .assign targets (exprs values) Location.nowhere
  | .compound target op value _ => .compound target op (expr value) Location.nowhere
  | .step target up _ => .step target up Location.nowhere
  | .ifElse found => .ifElse (ifStmt found)
  | .loop init condition post body _ =>
      .loop (optionalStmt init) (optionalExpr condition) (optionalStmt post) (stmts body) Location.nowhere
  | .switch init tag found _ => .switch (optionalStmt init) (optionalExpr tag) (cases found) Location.nowhere
  | .return values _ => .return (exprs values) Location.nowhere
  | .break _ => .break Location.nowhere
  | .continue _ => .continue Location.nowhere
  | .block body => .block (stmts body)
  | .expression found => .expression (expr found)

def stmts : List Stmt → List Stmt
  | [] => []
  | first :: rest => stmt first :: stmts rest

/-- A statement without places, if there is one. -/
def optionalStmt : Option Stmt → Option Stmt
  | none => none
  | some found => some (stmt found)

end

/-- A declaration of a file without places. -/
def decl : Decl → Decl
  | .function name found => .function name (function literal found)
  | .values found => .values (valueDecl literal found)

/-- An import without its place. -/
def importSpec (found : Import) : Import := { found with location := Location.nowhere }

/-- A file without places. -/
def program (found : Program) : Program :=
  ⟨found.package, found.imports.map importSpec, found.declarations.map (decl literal)⟩

end Unplaced

def settledFloat (value : Float) : Expr :=
  if Decimal.IsFinite value then .float value else .identifier infinityName Location.nowhere

/-- A file without its places. -/
def unplaced : Program → Program := Unplaced.program .float

def settledProgram : Program → Program := Unplaced.program settledFloat

/-! ## Expressions in a tree -/

namespace Everywhere

variable (holds : Expr → Prop)

mutual

/-- Something holds of an expression and of all that occur in it. -/
def expr : Expr → Prop
  | .binary left op right location => holds (.binary left op right location) ∧ expr left ∧ expr right
  | .unary op operand location => holds (.unary op operand location) ∧ expr operand
  | .call callee args location => holds (.call callee args location) ∧ expr callee ∧ exprs args
  | .function found => holds (.function found) ∧ function found
  | .integer value => holds (.integer value)
  | .float value => holds (.float value)
  | .string value => holds (.string value)
  | .identifier name location => holds (.identifier name location)
  | .qualified package name location => holds (.qualified package name location)

def exprs : List Expr → Prop
  | [] => True
  | first :: rest => expr first ∧ exprs rest

/-- Something holds of all expressions in an expression, if there is one. -/
def optionalExpr : Option Expr → Prop
  | none => True
  | some found => expr found

/-- Something holds of all expressions in a function. -/
def function : FunctionLiteral → Prop
  | ⟨_, body, _⟩ => stmts body

/-- Something holds of all expressions in a declaration. -/
def valueDecl : ValueDecl → Prop
  | ⟨_, _, _, values, _⟩ => exprs values

/-- Something holds of all expressions in a conditional statement. -/
def ifStmt : IfStmt → Prop
  | ⟨init, condition, body, orElse, _⟩ => optionalStmt init ∧ expr condition ∧ stmts body ∧ elseBranch orElse

/-- Something holds of all expressions in what follows the body of a conditional statement. -/
def elseBranch : ElseBranch → Prop
  | .absent => True
  | .block body => stmts body
  | .chain next => ifStmt next

def caseLabel : CaseLabel → Prop
  | .values values => exprs values
  | .otherwise => True

def switchCase : SwitchCase → Prop
  | ⟨label, body, _⟩ => caseLabel label ∧ stmts body

def cases : List SwitchCase → Prop
  | [] => True
  | first :: rest => switchCase first ∧ cases rest

def stmt : Stmt → Prop
  | .declare decl => valueDecl decl
  | .define _ values _ | .assign _ values _ | .return values _ => exprs values
  | .compound _ _ value _ => expr value
  | .ifElse found => ifStmt found
  | .loop init condition post body _ =>
      optionalStmt init ∧ optionalExpr condition ∧ optionalStmt post ∧ stmts body
  | .switch init tag found _ => optionalStmt init ∧ optionalExpr tag ∧ cases found
  | .block body => stmts body
  | .expression found => expr found
  | .step _ _ _ | .break _ | .continue _ => True

def stmts : List Stmt → Prop
  | [] => True
  | first :: rest => stmt first ∧ stmts rest

/-- Something holds of all expressions in a statement, if there is one. -/
def optionalStmt : Option Stmt → Prop
  | none => True
  | some found => stmt found

end

/-- Something holds of all expressions in a declaration of a file. -/
def decl : Decl → Prop
  | .function _ found => function holds found
  | .values found => valueDecl holds found

/-- Something holds of all expressions in a file. -/
def program (found : Program) : Prop := ∀ declared ∈ found.declarations, decl holds declared

end Everywhere

/-- No call has the smallest integer as its callee. -/
def Callable : Expr → Prop
  | .call (.integer value) _ _ => value ≠ Int64.minValue
  | _ => True

/-- The expression is no infinite float. -/
def NotInfinite : Expr → Prop
  | .float value => Decimal.IsFinite value
  | _ => True

end MiniGo.Syntax
