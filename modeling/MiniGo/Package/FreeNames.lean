import MiniGo.Tree

/-!
# Free names

The free names of a piece of code are the names that it reads or assigns and that no declaration
around them inside that piece binds. Declarations are seen from the statement behind them to the end
of their block; names behind a point belong to another package and are not free.

Walking a statement gives the names bound behind it together with the free names in it.
-/

namespace MiniGo.FreeNames

/-- A name is free unless it is bound. -/
def ofName (bound : List String) (name : String) : List String :=
  if bound.contains name then [] else [name]

def parameters (signature : Signature) : List String :=
  signature.params.map (·.name) ++ signature.resultNames

mutual

/-- The free names of an expression. -/
def ofExpr (bound : List String) : Expr → List String
  | .integer _ | .float _ | .string _ | .qualified .. => []
  | .identifier name _ => ofName bound name
  | .binary left _ right _ => ofExpr bound left ++ ofExpr bound right
  | .unary _ operand _ => ofExpr bound operand
  | .call callee args _ => ofExpr bound callee ++ ofExprs bound args
  | .function literal => ofFunction bound literal

def ofExprs (bound : List String) : List Expr → List String
  | [] => []
  | expr :: exprs => ofExpr bound expr ++ ofExprs bound exprs

def ofFunction (bound : List String) : FunctionLiteral → List String
  | ⟨signature, body, _⟩ => ofStmts (parameters signature ++ bound) body

def ofOptionalExpr (bound : List String) : Option Expr → List String
  | none => []
  | some expr => ofExpr bound expr

/-- The free names of the values of a declaration, and the names bound behind it. -/
def ofDecl (bound : List String) : ValueDecl → List String × List String
  | ⟨_, names, _, values, _⟩ => (names ++ bound, ofExprs bound values)

def ofIf (bound : List String) : IfStmt → List String
  | ⟨init, condition, body, orElse, _⟩ =>
      let (inner, first) := ofOptionalStmt bound init
      first ++ ofExpr inner condition ++ ofStmts inner body ++ ofElse inner orElse

/-- The free names of what follows the body of a conditional statement. -/
def ofElse (bound : List String) : ElseBranch → List String
  | .absent => []
  | .block body => ofStmts bound body
  | .chain next => ofIf bound next

def ofLabel (bound : List String) : CaseLabel → List String
  | .values values => ofExprs bound values
  | .otherwise => []

def ofCase (bound : List String) : SwitchCase → List String
  | ⟨label, body, _⟩ => ofLabel bound label ++ ofStmts bound body

def ofCases (bound : List String) : List SwitchCase → List String
  | [] => []
  | first :: rest => ofCase bound first ++ ofCases bound rest

/-- The names bound behind a statement, and its free names. -/
def ofStmt (bound : List String) : Stmt → List String × List String
  | .declare decl => ofDecl bound decl
  | .define names values _ => (names ++ bound, ofExprs bound values)
  | .assign targets values _ =>
      (bound, ofExprs bound values
        ++ (targets.filter (· != blankName)).flatMap (ofName bound))
  | .compound target _ value _ =>
      -- The name is both read and assigned, and counts once.
      (bound, ofExpr bound value ++ if target == blankName then [] else ofName bound target)
  | .step target _ _ => (bound, ofName bound target)
  | .ifElse found => (bound, ofIf bound found)
  | .loop init condition post body _ =>
      let (inner, first) := ofOptionalStmt bound init
      let (behind, last) := ofOptionalStmt inner post
      -- A declaration in the last part would be seen by the body; the grammar allows none there.
      (bound, first ++ ofOptionalExpr inner condition ++ last ++ ofStmts behind body)
  | .switch init tag cases _ =>
      let (inner, first) := ofOptionalStmt bound init
      (bound, first ++ ofOptionalExpr inner tag ++ ofCases inner cases)
  | .return values _ => (bound, ofExprs bound values)
  | .break _ | .continue _ => (bound, [])
  | .block body => (bound, ofStmts bound body)
  | .expression expr => (bound, ofExpr bound expr)

def ofStmts (bound : List String) : List Stmt → List String
  | [] => []
  | stmt :: stmts =>
      let (behind, found) := ofStmt bound stmt
      found ++ ofStmts behind stmts

/-- The names bound behind a statement that may be absent, and its free names. -/
def ofOptionalStmt (bound : List String) : Option Stmt → List String × List String
  | none => (bound, [])
  | some stmt => ofStmt bound stmt

end

end MiniGo.FreeNames
