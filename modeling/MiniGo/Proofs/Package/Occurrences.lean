import Mathlib.Tactic.Tauto
import MiniGo.Package.FreeNames

/-!
# Free occurrences

A name is free in a piece of code when it is read or assigned there and no declaration around it binds it.
`Occurs` says so construct by construct: a declaration is taken away from what it covers, the statements
behind it in its block. `FreeNames` walks with the names that are bound so far; it finds a name exactly when
the name is free and not among those (`mem_ofExprs`).
-/

namespace MiniGo

/-- The names that a statement declares for the statements behind it. -/
def Stmt.declared : Stmt → List String
  | .declare decl => decl.names
  | .define names _ _ => names
  | _ => []

/-- The names that a statement in a header declares, if there is one. -/
def declaredIn (header : Option Stmt) : List String := (header.map Stmt.declared).getD []

namespace Occurs

variable (name : String)

mutual

/-- The name is free in an expression. -/
def expr : Expr → Prop
  | .integer _ | .float _ | .string _ | .qualified .. => False
  | .identifier found _ => found = name
  | .binary left _ right _ => expr left ∨ expr right
  | .unary _ operand _ => expr operand
  | .call callee args _ => expr callee ∨ exprs args
  | .function literal => function literal

/-- The name is free in one of some expressions. -/
def exprs : List Expr → Prop
  | [] => False
  | first :: rest => expr first ∨ exprs rest

/-- The name is free in a function: its parameters and named results cover its body. -/
def function : FunctionLiteral → Prop
  | ⟨signature, body, _⟩ => name ∉ FreeNames.parameters signature ∧ stmts body

def optionalExpr : Option Expr → Prop
  | none => False
  | some found => expr found

def valueDecl : ValueDecl → Prop
  | ⟨_, _, _, values, _⟩ => exprs values

/-- The name is free in a conditional statement: what the header declares covers the rest. -/
def ifStmt : IfStmt → Prop
  | ⟨init, condition, body, orElse, _⟩ =>
      optionalStmt init ∨ (name ∉ declaredIn init ∧ (expr condition ∨ stmts body ∨ elseBranch orElse))

/-- The name is free in what follows the body of a conditional statement. -/
def elseBranch : ElseBranch → Prop
  | .absent => False
  | .block body => stmts body
  | .chain next => ifStmt next

def caseLabel : CaseLabel → Prop
  | .values values => exprs values
  | .otherwise => False

def switchCase : SwitchCase → Prop
  | ⟨label, body, _⟩ => caseLabel label ∨ stmts body

def switchCases : List SwitchCase → Prop
  | [] => False
  | first :: rest => switchCase first ∨ switchCases rest

/-- The name is free in a statement; an assignment to the blank name names nothing. -/
def stmt : Stmt → Prop
  | .declare decl => valueDecl decl
  | .define _ values _ => exprs values
  | .assign targets values _ => exprs values ∨ (name ∈ targets ∧ name ≠ blankName)
  | .compound target _ value _ => expr value ∨ (name = target ∧ name ≠ blankName)
  | .step target _ _ => name = target
  | .ifElse found => ifStmt found
  | .loop init condition post body _ =>
      optionalStmt init ∨ (name ∉ declaredIn init ∧
        (optionalExpr condition ∨ optionalStmt post ∨ (name ∉ declaredIn post ∧ stmts body)))
  | .switch init tag cases _ =>
      optionalStmt init ∨ (name ∉ declaredIn init ∧ (optionalExpr tag ∨ switchCases cases))
  | .return values _ => exprs values
  | .break _ | .continue _ => False
  | .block body => stmts body
  | .expression found => expr found

/-- The name is free in statements: a declaration covers those behind it. -/
def stmts : List Stmt → Prop
  | [] => False
  | first :: rest => stmt first ∨ (name ∉ first.declared ∧ stmts rest)

def optionalStmt : Option Stmt → Prop
  | none => False
  | some found => stmt found

end

end Occurs

namespace FreeNames

variable {name : String} {bound : List String}

theorem mem_ofName {found : String} : name ∈ ofName bound found ↔ name ∉ bound ∧ found = name := by
  unfold ofName
  split
  · rename_i here
    simp only [List.contains_eq_mem, decide_eq_true_eq] at here
    constructor
    · exact fun member => absurd member List.not_mem_nil
    · rintro ⟨free, rfl⟩
      exact absurd here free
  · rename_i free
    simp only [List.contains_eq_mem, decide_eq_true_eq] at free
    rw [List.mem_singleton]
    constructor
    · rintro rfl
      exact ⟨free, rfl⟩
    · exact fun both => both.2.symm

theorem mem_ofTargets {targets : List String} :
    name ∈ (targets.filter (· != blankName)).flatMap (ofName bound) ↔
      name ∉ bound ∧ name ∈ targets ∧ name ≠ blankName := by
  simp only [List.mem_flatMap, List.mem_filter, mem_ofName, bne_iff_ne, ne_eq]
  constructor
  · rintro ⟨found, ⟨member, named⟩, free, rfl⟩
    exact ⟨free, member, named⟩
  · exact fun ⟨free, member, named⟩ => ⟨name, ⟨member, named⟩, free, rfl⟩

theorem mem_ofTarget {target : String} :
    name ∈ (if target == blankName then [] else ofName bound target) ↔
      name ∉ bound ∧ name = target ∧ name ≠ blankName := by
  split
  · rename_i blank
    obtain rfl : target = blankName := eq_of_beq blank
    exact ⟨fun member => absurd member List.not_mem_nil, fun ⟨_, same, named⟩ => absurd same named⟩
  · rename_i named
    rw [mem_ofName]
    constructor
    · rintro ⟨free, rfl⟩
      exact ⟨free, rfl, fun blank => named (beq_iff_eq.mpr blank)⟩
    · exact fun ⟨free, same, _⟩ => ⟨free, same.symm⟩

theorem ofStmt_bound (bound : List String) (found : Stmt) : (ofStmt bound found).1 = found.declared ++ bound := by
  cases found with
  | declare decl => cases decl; rfl
  | _ => rfl

theorem ofOptionalStmt_bound (bound : List String) (found : Option Stmt) :
    (ofOptionalStmt bound found).1 = declaredIn found ++ bound := by
  cases found with
  | none => rfl
  | some found => exact ofStmt_bound bound found

mutual

theorem mem_ofExpr (bound : List String) :
    (found : Expr) → (name ∈ ofExpr bound found ↔ name ∉ bound ∧ Occurs.expr name found)
  | .integer _ | .float _ | .string _ | .qualified .. => by simp [ofExpr, Occurs.expr]
  | .identifier found _ => mem_ofName
  | .binary left _ right _ => by
      rw [ofExpr, List.mem_append, mem_ofExpr bound left, mem_ofExpr bound right, Occurs.expr]
      tauto
  | .unary _ operand _ => mem_ofExpr bound operand
  | .call callee args _ => by
      rw [ofExpr, List.mem_append, mem_ofExpr bound callee, mem_ofExprs bound args, Occurs.expr]
      tauto
  | .function literal => mem_ofFunction bound literal

theorem mem_ofExprs (bound : List String) :
    (found : List Expr) → (name ∈ ofExprs bound found ↔ name ∉ bound ∧ Occurs.exprs name found)
  | [] => by simp [ofExprs, Occurs.exprs]
  | first :: rest => by
      rw [ofExprs, List.mem_append, mem_ofExpr bound first, mem_ofExprs bound rest, Occurs.exprs]
      tauto

theorem mem_ofFunction (bound : List String) :
    (found : FunctionLiteral) → (name ∈ ofFunction bound found ↔ name ∉ bound ∧ Occurs.function name found)
  | ⟨signature, body, _⟩ => by
      rw [ofFunction, mem_ofStmts, List.mem_append, Occurs.function]
      tauto

theorem mem_ofOptionalExpr (bound : List String) :
    (found : Option Expr) → (name ∈ ofOptionalExpr bound found ↔ name ∉ bound ∧ Occurs.optionalExpr name found)
  | none => by simp [ofOptionalExpr, Occurs.optionalExpr]
  | some found => mem_ofExpr bound found

theorem mem_ofIf (bound : List String) :
    (found : IfStmt) → (name ∈ ofIf bound found ↔ name ∉ bound ∧ Occurs.ifStmt name found)
  | ⟨init, condition, body, orElse, _⟩ => by
      rw [ofIf, Occurs.ifStmt]
      simp only [List.mem_append, mem_ofOptionalStmt bound init, mem_ofExpr _ condition, mem_ofStmts _ body,
        mem_ofElse _ orElse, ofOptionalStmt_bound]
      tauto

theorem mem_ofElse (bound : List String) :
    (found : ElseBranch) → (name ∈ ofElse bound found ↔ name ∉ bound ∧ Occurs.elseBranch name found)
  | .absent => by simp [ofElse, Occurs.elseBranch]
  | .block body => mem_ofStmts bound body
  | .chain next => mem_ofIf bound next

theorem mem_ofLabel (bound : List String) :
    (found : CaseLabel) → (name ∈ ofLabel bound found ↔ name ∉ bound ∧ Occurs.caseLabel name found)
  | .values values => mem_ofExprs bound values
  | .otherwise => by simp [ofLabel, Occurs.caseLabel]

theorem mem_ofCase (bound : List String) :
    (found : SwitchCase) → (name ∈ ofCase bound found ↔ name ∉ bound ∧ Occurs.switchCase name found)
  | ⟨label, body, _⟩ => by
      rw [ofCase, List.mem_append, mem_ofLabel bound label, mem_ofStmts bound body, Occurs.switchCase]
      tauto

theorem mem_ofCases (bound : List String) :
    (found : List SwitchCase) → (name ∈ ofCases bound found ↔ name ∉ bound ∧ Occurs.switchCases name found)
  | [] => by simp [ofCases, Occurs.switchCases]
  | first :: rest => by
      rw [ofCases, List.mem_append, mem_ofCase bound first, mem_ofCases bound rest, Occurs.switchCases]
      tauto

theorem mem_ofStmt (bound : List String) :
    (found : Stmt) → (name ∈ (ofStmt bound found).2 ↔ name ∉ bound ∧ Occurs.stmt name found)
  | .declare ⟨_, _, _, values, _⟩ | .define _ values _ | .return values _ => mem_ofExprs bound values
  | .assign targets values _ => by
      rw [ofStmt, List.mem_append, mem_ofExprs bound values, mem_ofTargets, Occurs.stmt]
      tauto
  | .compound target _ value _ => by
      rw [ofStmt, List.mem_append, mem_ofExpr bound value, mem_ofTarget, Occurs.stmt]
      tauto
  | .step target _ _ => mem_ofName.trans (and_congr_right fun _ => eq_comm)
  | .ifElse found => mem_ofIf bound found
  -- The header binds names for all parts behind it.
  | .loop init condition post body _ => by
      rw [ofStmt, Occurs.stmt]
      simp only [List.mem_append, mem_ofOptionalStmt _ init, mem_ofOptionalExpr _ condition,
        mem_ofOptionalStmt _ post, mem_ofStmts _ body, ofOptionalStmt_bound]
      tauto
  | .switch init tag cases _ => by
      rw [ofStmt, Occurs.stmt]
      simp only [List.mem_append, mem_ofOptionalStmt _ init, mem_ofOptionalExpr _ tag, mem_ofCases _ cases,
        ofOptionalStmt_bound]
      tauto
  | .break _ | .continue _ => by simp [ofStmt, Occurs.stmt]
  | .block body => mem_ofStmts bound body
  | .expression found => mem_ofExpr bound found

theorem mem_ofStmts (bound : List String) :
    (found : List Stmt) → (name ∈ ofStmts bound found ↔ name ∉ bound ∧ Occurs.stmts name found)
  | [] => by simp [ofStmts, Occurs.stmts]
  | first :: rest => by
      rw [ofStmts, List.mem_append, mem_ofStmt bound first, mem_ofStmts _ rest, ofStmt_bound, List.mem_append,
        Occurs.stmts]
      tauto

theorem mem_ofOptionalStmt (bound : List String) :
    (found : Option Stmt) → (name ∈ (ofOptionalStmt bound found).2 ↔ name ∉ bound ∧ Occurs.optionalStmt name found)
  | none => by simp [ofOptionalStmt, Occurs.optionalStmt]
  | some found => mem_ofStmt bound found

end

end FreeNames

end MiniGo
