import MiniGo.Tree

/-!
# Terminating statements

A terminating statement is one whose end is never reached. Statements terminate when the last of
them does, and a loop or a switch only when no `break` leaves it.
-/

namespace MiniGo

mutual

/-- A `break` in this statement leaves the statement around it; loops and switches keep those inside
them. -/
def Stmt.breaksOut : Stmt → Bool
  | .break _ => true
  | .block body => breaksOutAny body
  | .ifElse found => found.breaksOut
  | _ => false

/-- A `break` in one of these statements leaves the statement around them. -/
def breaksOutAny : List Stmt → Bool
  | [] => false
  | first :: rest => first.breaksOut || breaksOutAny rest

/-- A `break` in a conditional statement leaves the statement around it. -/
def IfStmt.breaksOut : IfStmt → Bool
  | ⟨_, _, body, orElse, _⟩ => breaksOutAny body || orElse.breaksOut

/-- A `break` in what follows the body of a conditional statement leaves the statement around it. -/
def ElseBranch.breaksOut : ElseBranch → Bool
  | .absent => false
  | .block body => breaksOutAny body
  | .chain next => next.breaksOut

end

def SwitchCase.isDefault (found : SwitchCase) : Bool :=
  match found.label with
  | .otherwise => true
  | .values _ => false

mutual

/-- The end of this statement is never reached. -/
def Stmt.isTerminating : Stmt → Bool
  | .return .. => true
  | .block body => isTerminatingList body
  | .ifElse found => found.isTerminating
  | .loop _ none _ body _ => !breaksOutAny body
  | .switch _ _ cases _ => cases.any SwitchCase.isDefault && isTerminatingCases cases
  | _ => false

/-- The end of these statements is never reached. -/
def isTerminatingList : List Stmt → Bool
  | [] => false
  | [last] => last.isTerminating
  | _ :: second :: rest => isTerminatingList (second :: rest)

/-- The end of a conditional statement is never reached. -/
def IfStmt.isTerminating : IfStmt → Bool
  | ⟨_, _, body, orElse, _⟩ => isTerminatingList body && orElse.isTerminating

/-- The end of what follows the body of a conditional statement is never reached. -/
def ElseBranch.isTerminating : ElseBranch → Bool
  | .absent => false
  | .block body => isTerminatingList body
  | .chain next => next.isTerminating

/-- The end of no case is reached, and no case is left by a `break`. -/
def isTerminatingCases : List SwitchCase → Bool
  | [] => true
  | ⟨_, body, _⟩ :: rest => isTerminatingList body && !breaksOutAny body && isTerminatingCases rest

end

end MiniGo
