import MiniGo.Proofs.Running.Keeps

/-!
# Values that operators give

Operators give scalars, and arithmetic keeps the kind of its left operand. No operation on values
reports an undefined name or a wrong number of values.
-/

namespace MiniGo.Running

open Lexical

/-- An error that an operation on values can come to: it is not about a name that has no binding, and
not about a number of values. -/
def Operational : RuntimeError → Prop
  | .undefined _ _ | .multiValue _ _ | .noValue _ | .returnCount _ _ _ _ | .assignmentCount _ _ _ => False
  | _ => True

theorem Operational.excused {error : RuntimeError} (operational : Operational error) :
    Excused (.fault error) := by
  cases error with
  | undefined => exact operational
  | _ => trivial

def isScalar : Kind → Bool
  | .int | .float | .string | .bool => true
  | _ => false

variable {program : Nat → Facts} {world : World}

theorem valid_of_scalar {value : Value} (scalar : isScalar value.kind = true) :
    Valid program world value := by
  cases value with
  | int | float | string | bool => exact ⟨rfl, nofun⟩
  | _ => exact nomatch scalar

theorem valid_builtin (function : Builtin) : Valid program world (.builtin function) :=
  ⟨rfl, nofun⟩

theorem Valid.coerce {value : Value} (valid : Valid program world value) (source : Option Expr)
    (type : Ty) : Valid program world (value.coerce source type) := by
  unfold Value.coerce
  split
  · split
    · exact valid_of_scalar rfl
    · exact valid
  · exact valid

theorem conformsTo_of_kind {value other : Value} {type : Ty} (same : value.kind = other.kind)
    (conforms : other.conformsTo type = true) : value.conformsTo type = true := by
  unfold Value.conformsTo at conforms ⊢
  rw [same]
  exact conforms

theorem storable_of_conformsTo {value : Value} {type : Ty} (conforms : value.conformsTo type = true) :
    isStorable value.kind = true := by
  unfold Value.conformsTo at conforms
  cases kind : value.kind with
  | package | tuple | unit =>
      rw [kind] at conforms
      cases type <;> exact nomatch conforms
  | _ => rfl

theorem zero_conformsTo {type : Ty} (inhabits : Inhabits type) :
    (Value.zero type).conformsTo type = true := by
  cases type with
  | named => exact inhabits.elim
  | _ => rfl

theorem valid_zero {type : Ty} (inhabits : Inhabits type) :
    Valid program world (.zero type) := by
  cases type with
  | named => exact inhabits.elim
  | func => exact ⟨rfl, nofun⟩
  | _ => exact valid_of_scalar rfl

/-! ## Operators -/

/-- What the operators on values of one kind come to: a scalar, which has the kind of the operands
when the operator is arithmetic, or an error of the operation. -/
def Computes (op : BinaryOp) (kind : Kind) : Except RuntimeError Value → Prop
  | .ok value => isScalar value.kind = true ∧ (op.isArithmetic = true → value.kind = kind)
  | .error error => Operational error

theorem intOp_computes (op : BinaryOp) (a b : Int64) (location : Location) :
    Computes op .int (Value.intOp op a b location) := by
  cases op with
  | divide | remainder =>
      unfold Value.intOp
      dsimp only
      split
      · exact trivial
      · exact ⟨rfl, fun _ => rfl⟩
  | shiftLeft | shiftRight =>
      unfold Value.intOp
      dsimp only
      split
      · exact trivial
      · split <;> exact ⟨rfl, fun _ => rfl⟩
  | _ => first | exact ⟨rfl, fun _ => rfl⟩ | exact ⟨rfl, nofun⟩ | exact trivial

theorem floatOp_computes (op : BinaryOp) (a b : Float) (location : Location) :
    Computes op .float (Value.floatOp op a b location) := by
  have compares : ∀ outcome, op.isArithmetic = false → Computes op .float (.ok (.bool outcome)) :=
    fun _ compares => ⟨rfl, fun arithmetic => by rw [compares] at arithmetic; cases arithmetic⟩
  cases op with
  | divide =>
      unfold Value.floatOp
      dsimp only
      split
      · exact trivial
      · exact ⟨rfl, fun _ => rfl⟩
  | add | subtract | multiply => exact ⟨rfl, fun _ => rfl⟩
  | less | lessEqual | greater | greaterEqual =>
      unfold Value.floatOp
      cases Value.floatOrder? a b <;> exact compares _ rfl
  | equal | notEqual | and | or | remainder | bitAnd | bitOr | bitXor | bitClear | shiftLeft | shiftRight =>
      unfold Value.floatOp
      cases Value.floatOrder? a b <;> exact trivial

theorem stringOp_computes (op : BinaryOp) (a b : String) (location : Location) :
    Computes op .string (Value.stringOp op a b location) := by
  cases op with
  | add => exact ⟨rfl, fun _ => rfl⟩
  | _ => first | exact ⟨rfl, nofun⟩ | exact trivial

theorem boolOp_computes (op : BinaryOp) (a b : Bool) (location : Location) :
    Computes op .bool (Value.boolOp op a b location) := by
  cases op with
  | and | or => exact ⟨rfl, nofun⟩
  | _ => exact trivial

theorem equals_operational {left right : Value} {location : Location} {error : RuntimeError}
    (result : left.equals right location = .error error) : Operational error := by
  unfold Value.equals at result
  split at result
  · exact nomatch result
  · exact nomatch result
  · exact nomatch result
  · exact nomatch result
  · split at result
    · cases result
      exact trivial
    · cases result
      exact trivial

theorem binary_computes (op : BinaryOp) (left right : Value) (location : Location) :
    Computes op left.kind (Value.binary op left right location) := by
  -- Comparisons are not arithmetic, so they may change the kind.
  have compares : ∀ change : Bool → Bool, op.isArithmetic = false →
      Computes op left.kind (do
        let outcome ← left.equals right location
        pure (.bool (change outcome))) := by
    intro change compares
    cases result : left.equals right location with
    | error error => exact equals_operational result
    | ok outcome =>
        exact ⟨rfl, fun arithmetic => by rw [compares] at arithmetic; cases arithmetic⟩
  unfold Value.binary
  split
  · exact compares id rfl
  · exact compares not rfl
  · split
    · exact intOp_computes op _ _ location
    · exact floatOp_computes op _ _ location
    · exact stringOp_computes op _ _ location
    · exact boolOp_computes op _ _ location
    · split <;> exact trivial

theorem binary_scalar {op : BinaryOp} {left right value : Value} {location : Location}
    (result : Value.binary op left right location = .ok value) : isScalar value.kind = true := by
  have computes := binary_computes op left right location
  rw [result] at computes
  exact computes.1

theorem binary_kind {op : BinaryOp} {left right value : Value} {location : Location}
    (arithmetic : op.isArithmetic = true) (result : Value.binary op left right location = .ok value) :
    value.kind = left.kind := by
  have computes := binary_computes op left right location
  rw [result] at computes
  exact computes.2 arithmetic

theorem unary_scalar {op : UnaryOp} {operand value : Value} {location : Location}
    (result : Value.unary op operand location = .ok value) : isScalar value.kind = true := by
  unfold Value.unary at result
  split at result <;> cases result <;> rfl

theorem unary_operational {op : UnaryOp} {operand : Value} {location : Location} {error : RuntimeError}
    (result : Value.unary op operand location = .error error) : Operational error := by
  unfold Value.unary at result
  split at result <;> cases result
  exact trivial

theorem asBool_operational {value : Value} {location : Location} {error : RuntimeError}
    (result : value.asBool location = .error error) : Operational error := by
  unfold Value.asBool at result
  split at result
  · exact nomatch result
  · cases result
    exact trivial

/-! ## Built-in functions -/

theorem builtin_scalar {function : Builtin} {args results : List Value} {location : Location}
    {text : String} (result : function.call args location = .ok (results, text)) :
    ∀ value ∈ results, isScalar value.kind = true := by
  intro value member
  unfold Builtin.call at result
  split at result
  · cases result
    cases member
  · cases result
    cases member
  · cases result
    obtain rfl := List.mem_singleton.mp member
    rfl
  · cases result
    obtain rfl := List.mem_singleton.mp member
    rfl
  · split at result
    · cases result
      obtain rfl := List.mem_singleton.mp member
      rfl
    · exact nomatch result
    · exact nomatch result

/-- A built-in function gives as many values as its type says. -/
theorem builtin_length {function : Builtin} {args results : List Value} {location : Location}
    {text : String} (result : function.call args location = .ok (results, text)) :
    results.length = function.results.length := by
  unfold Builtin.call at result
  split at result
  · cases result
    rfl
  · cases result
    rfl
  · cases result
    rfl
  · cases result
    rfl
  · split at result
    · cases result
      rfl
    · cases result
    · cases result

theorem builtin_operational {function : Builtin} {args : List Value} {location : Location}
    {error : RuntimeError} (result : function.call args location = .error error) :
    Operational error := by
  unfold Builtin.call at result
  split at result
  · exact nomatch result
  · exact nomatch result
  · exact nomatch result
  · exact nomatch result
  · split at result
    · exact nomatch result
    · cases result
      exact trivial
    · cases result
      exact trivial

end MiniGo.Running
