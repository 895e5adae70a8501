import MiniGo.Value

/-!
# Operators on values

Binary and unary operators on values that are already evaluated. Integers wrap around at 64 bits,
division truncates toward zero, a shift by 64 or more moves all bits out; floats follow the binary
standard but refuse to be divided by zero; strings are joined and ordered by code points.
-/

namespace MiniGo.Value

/-- The outcome of an order operator, if it is one. -/
def compared (op : BinaryOp) (ordering : Ordering) : Option Value :=
  match op with
  | .less => some (bool (ordering == .lt))
  | .lessEqual => some (bool (ordering != .gt))
  | .greater => some (bool (ordering == .gt))
  | .greaterEqual => some (bool (ordering != .lt))
  | _ => none

def unordered (op : BinaryOp) : Option Value :=
  match op with
  | .less | .lessEqual | .greater | .greaterEqual => some (bool false)
  | _ => none

/-- The order of two floats; there is none if one of them is no number. -/
def floatOrder? (a b : Float) : Option Ordering :=
  if a < b then some .lt else if a == b then some .eq else if b < a then some .gt else none

def intOrder (a b : Int64) : Ordering :=
  if a < b then .lt else if a = b then .eq else .gt

def stringOrder (a b : String) : Ordering :=
  if a < b then .lt else if a = b then .eq else .gt

def undefinedOperator (op : BinaryOp) (kind : Kind) (location : Location) : Except RuntimeError Value :=
  .error (.mismatch (.binaryOperator op kind) location)

def intOp (op : BinaryOp) (a b : Int64) (location : Location) : Except RuntimeError Value :=
  match op with
  | .add => .ok (int (a + b))
  | .subtract => .ok (int (a - b))
  | .multiply => .ok (int (a * b))
  | .divide => if b = 0 then .error (.divisionByZero location) else .ok (int (a / b))
  | .remainder => if b = 0 then .error (.divisionByZero location) else .ok (int (a % b))
  | .bitAnd => .ok (int (a &&& b))
  | .bitOr => .ok (int (a ||| b))
  | .bitXor => .ok (int (a ^^^ b))
  | .bitClear => .ok (int (a &&& ~~~b))
  | .shiftLeft =>
      if b < 0 then .error (.negativeShift location)
      -- The shift of the machine takes its distance modulo 64, so greater ones are settled here.
      else if 64 ≤ b then .ok (int 0)
      else .ok (int (a <<< b))
  | .shiftRight =>
      if b < 0 then .error (.negativeShift location)
      else if 64 ≤ b then .ok (int (if a < 0 then -1 else 0))
      else .ok (int (a >>> b))
  | _ =>
      match compared op (intOrder a b) with
      | some outcome => .ok outcome
      | none => undefinedOperator op .int location

def floatOp (op : BinaryOp) (a b : Float) (location : Location) : Except RuntimeError Value :=
  match op with
  | .add => .ok (float (a + b))
  | .subtract => .ok (float (a - b))
  | .multiply => .ok (float (a * b))
  | .divide => if b == 0.0 then .error (.divisionByZero location) else .ok (float (a / b))
  | _ =>
      -- Beside a value that is no number every order is false; equality was settled before.
      let outcome := match floatOrder? a b with
        | some ordering => compared op ordering
        | none => unordered op
      match outcome with
      | some outcome => .ok outcome
      | none => undefinedOperator op .float location

def stringOp (op : BinaryOp) (a b : String) (location : Location) : Except RuntimeError Value :=
  match op with
  | .add => .ok (string (a ++ b))
  | _ =>
      match compared op (stringOrder a b) with
      | some outcome => .ok outcome
      | none => undefinedOperator op .string location

/-- An operator on truth values; both operands are evaluated already. -/
def boolOp (op : BinaryOp) (a b : Bool) (location : Location) : Except RuntimeError Value :=
  match op with
  | .and => .ok (bool (a && b))
  | .or => .ok (bool (a || b))
  | _ => undefinedOperator op .bool location

def binary (op : BinaryOp) (left right : Value) (location : Location) : Except RuntimeError Value :=
  match op with
  | .equal => do
      let outcome ← left.equals right location
      pure (bool outcome)
  | .notEqual => do
      let outcome ← left.equals right location
      pure (bool !outcome)
  | _ =>
      match left, right with
      | int a, int b => intOp op a b location
      | float a, float b => floatOp op a b location
      | string a, string b => stringOp op a b location
      | bool a, bool b => boolOp op a b location
      | a, b =>
          if a.kind = b.kind then undefinedOperator op a.kind location
          else .error (.mismatch (.operands a.kind b.kind) location)

def unary (op : UnaryOp) (operand : Value) (location : Location) : Except RuntimeError Value :=
  match op, operand with
  | .negate, int n => .ok (int (-n))
  | .negate, float x => .ok (float (-x))
  | .plus, int n => .ok (int n)
  | .plus, float x => .ok (float x)
  | .not, bool b => .ok (bool !b)
  | .bitNot, int n => .ok (int (~~~n))
  | op, operand => .error (.mismatch (.unaryOperator op operand.kind) location)

/-! ## Untyped integers -/

/-- An integer becomes a float where a float is expected, if the expression it came from is an
untyped integer. -/
def coerce (value : Value) (source : Option Expr) (target : Ty) : Value :=
  match value, target with
  | int n, .float => if source.any (·.isUntypedInteger) then float (floatOfInt n) else int n
  | value, _ => value

/-- An integer operand becomes a float beside a float, if its expression is an untyped integer. -/
def unify (left : Value) (leftExpr : Expr) (right : Value) (rightExpr : Expr) : Value × Value :=
  match left, right with
  | int n, float x =>
      (if leftExpr.isUntypedInteger then float (floatOfInt n) else int n, float x)
  | float x, int n =>
      (float x, if rightExpr.isUntypedInteger then float (floatOfInt n) else int n)
  | left, right => (left, right)

end MiniGo.Value
