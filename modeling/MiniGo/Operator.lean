/-!
# Operators

The operators of expressions, their spellings, and the five strengths at which binary operators
bind. `BinaryOp.symbol_injective` says that a spelling determines its operator.
-/

namespace MiniGo

/-- An operator in front of one operand. -/
inductive UnaryOp where
  | negate
  | plus
  | not
  | bitNot
deriving DecidableEq, Repr

def UnaryOp.symbol : UnaryOp → String
  | .negate => "-"
  | .plus => "+"
  | .not => "!"
  | .bitNot => "^"

/-- An operator between two operands. -/
inductive BinaryOp where
  | add
  | subtract
  | multiply
  | divide
  | remainder
  | bitAnd
  | bitOr
  | bitXor
  | bitClear
  | shiftLeft
  | shiftRight
  | equal
  | notEqual
  | less
  | lessEqual
  | greater
  | greaterEqual
  | and
  | or
deriving DecidableEq, Repr

namespace BinaryOp

def symbol : BinaryOp → String
  | add => "+"
  | subtract => "-"
  | multiply => "*"
  | divide => "/"
  | remainder => "%"
  | bitAnd => "&"
  | bitOr => "|"
  | bitXor => "^"
  | bitClear => "&^"
  | shiftLeft => "<<"
  | shiftRight => ">>"
  | equal => "=="
  | notEqual => "!="
  | less => "<"
  | lessEqual => "<="
  | greater => ">"
  | greaterEqual => ">="
  | and => "&&"
  | or => "||"

/-- How strongly an operator binds, from one for `||` to five for products. -/
def precedence : BinaryOp → Nat
  | multiply | divide | remainder | shiftLeft | shiftRight | bitAnd | bitClear => 5
  | add | subtract | bitOr | bitXor => 4
  | equal | notEqual | less | lessEqual | greater | greaterEqual => 3
  | and => 2
  | or => 1

/-- Operators that compute a number; they may be joined with an assignment. -/
def isArithmetic (op : BinaryOp) : Bool := 4 ≤ op.precedence

theorem precedence_pos (op : BinaryOp) : 1 ≤ op.precedence := by cases op <;> decide

theorem precedence_le (op : BinaryOp) : op.precedence ≤ 5 := by cases op <;> decide

theorem symbol_injective {a b : BinaryOp} (same : a.symbol = b.symbol) : a = b := by
  cases a <;> cases b <;> first | rfl | exact absurd same (by decide)

end BinaryOp

end MiniGo
