import MiniGo.Eval.Evaluate
import MiniGo.Proofs.Syntax.Places

/-!
# Runs without places

Values, stores and errors without the places in the code that they hold. No operation on them looks at places:
each does the same without them, and gives what it gave without its places.
-/

namespace MiniGo.Placeless

open Syntax

/-! ## Values and stores -/

mutual

/-- A value without the places in its code. -/
def value : Value → Value
  | .int n => .int n
  | .float x => .float x
  | .string text => .string text
  | .bool b => .bool b
  | .function ⟨identity, name, literal, env⟩ => .function ⟨identity, name, Unplaced.function .float literal, env⟩
  | .builtin found => .builtin found
  | .nilFunction => .nilFunction
  | .package found => .package found
  | .tuple found => .tuple (values found)
  | .unit => .unit

def values : List Value → List Value
  | [] => []
  | first :: rest => value first :: values rest

end

theorem values_eq_map (found : List Value) : values found = found.map value := by
  induction found with
  | nil => rfl
  | cons first rest ih => rw [values, ih, List.map_cons]

def closure (found : Closure) : Closure := { found with literal := Unplaced.function .float found.literal }

/-- A value with the expression that it came from, without places. -/
def sourced (pair : Value × Option Expr) : Value × Option Expr := (value pair.1, pair.2.map (Unplaced.expr .float))

/-- A tag with its expression, without places. -/
def tagged (pair : Value × Expr) : Value × Expr := (value pair.1, Unplaced.expr .float pair.2)

/-- How a statement finished, without places. -/
def flow : Flow → Flow
  | .normal => .normal
  | .break => .break
  | .continue => .continue
  | .return results => .return (results.map value)

def binding (found : Binding) : Binding := { found with value := value found.value }

def bindings (found : List (String × Binding)) : List (String × Binding) :=
  found.map fun entry => (entry.1, binding entry.2)

def scope (found : Scope) : Scope := ⟨bindings found.bindings⟩

def store (found : Store) : Store := ⟨found.scopes.map scope⟩

/-! ## Errors -/

/-- An error of a run without its place. -/
def runtime : RuntimeError → RuntimeError
  | .mismatch cause _ => .mismatch cause Location.nowhere
  | .divisionByZero _ => .divisionByZero Location.nowhere
  | .stackOverflow limit _ => .stackOverflow limit Location.nowhere
  | .notCallable found _ => .notCallable found Location.nowhere
  | .nilFunction _ => .nilFunction Location.nowhere
  | .argumentCount function expected found _ => .argumentCount function expected found Location.nowhere
  | .multiValue count _ => .multiValue count Location.nowhere
  | .noValue _ => .noValue Location.nowhere
  | .returnCount function expected found _ => .returnCount function expected found Location.nowhere
  | .assignmentCount targets values _ => .assignmentCount targets values Location.nowhere
  | .negativeShift _ => .negativeShift Location.nowhere
  | .undefined name _ => .undefined name Location.nowhere

/-- An error of a check without its place. -/
def resolution : ResolutionError → ResolutionError
  | .undefined name _ => .undefined name Location.nowhere
  | .noNewVariables _ => .noNewVariables Location.nowhere
  | .redeclared name _ => .redeclared name Location.nowhere
  | .returnCount function expected found _ => .returnCount function expected found Location.nowhere
  | .multiValue count _ => .multiValue count Location.nowhere
  | .noValue _ => .noValue Location.nowhere
  | .initializationCycle names _ => .initializationCycle names Location.nowhere
  | .missingReturn function _ => .missingReturn function Location.nowhere
  | .assignmentCount targets values _ => .assignmentCount targets values Location.nowhere
  | .unknownPackage name _ => .unknownPackage name Location.nowhere
  | .packageAsValue name _ => .packageAsValue name Location.nowhere
  | .unexported package name _ => .unexported package name Location.nowhere
  | .undefinedInPackage package name _ => .undefinedInPackage package name Location.nowhere
  | .notAssignable name _ => .notAssignable name Location.nowhere
  | .unknownType name _ => .unknownType name Location.nowhere
  | .misplaced jump _ => .misplaced jump Location.nowhere
  | .importCycle paths => .importCycle paths
  | .packageNotFound path searched => .packageNotFound path searched
  | .packageMismatch expected found directory => .packageMismatch expected found directory
  | .missingEntry package function => .missingEntry package function

/-- A lexical error without its place. -/
def lexical : LexError → LexError
  | .unexpectedCharacter character _ => .unexpectedCharacter character Location.nowhere
  | .unterminatedString _ => .unterminatedString Location.nowhere
  | .unterminatedComment _ => .unterminatedComment Location.nowhere
  | .invalidNumber text _ => .invalidNumber text Location.nowhere

/-- A syntax error without its place. -/
def syntactic : SyntaxError → SyntaxError
  | .unexpected expected found => .unexpected expected { found with location := Location.nowhere }
  | .invalid flaw _ => .invalid flaw Location.nowhere

/-- A failure without its place. -/
def error : Error → Error
  | .lex error => .lex (lexical error)
  | .parse error => .parse (syntactic error)
  | .resolution error => .resolution (resolution error)
  | .runtime error => .runtime (runtime error)
  | .unreadable fault => .unreadable fault
  | .settings => .settings
  | .exhausted => .exhausted
  | .inFile path inner => .inFile path (error inner)

/-- Why a computation stopped, without its place. -/
def halt : Halt → Halt
  | .fault error => .fault (runtime error)
  | .exhausted => .exhausted

def outcome (erase : α → β) : Except RuntimeError α → Except RuntimeError β
  | .ok found => .ok (erase found)
  | .error found => .error (runtime found)

/-! ## Operations on values -/

@[simp] theorem kind_value (found : Value) : (value found).kind = found.kind := by
  cases found <;> rfl

@[simp] theorem conformsTo_value (found : Value) (type : Ty) : (value found).conformsTo type = found.conformsTo type := by
  unfold Value.conformsTo
  rw [kind_value]

@[simp] theorem value_zero (type : Ty) : value (.zero type) = .zero type := by
  cases type <;> rfl

@[simp] theorem location?_expr (found : Expr) :
    ((Unplaced.expr .float found).location?.getD Location.nowhere) = Location.nowhere := by
  cases found with
  | function literal =>
      obtain ⟨_, _, _⟩ := literal
      rfl
  | _ => rfl

@[simp] theorem isUntypedInteger_expr : (found : Expr) →
    (Unplaced.expr .float found).isUntypedInteger = found.isUntypedInteger
  | .integer _ | .float _ | .string _ | .identifier _ _ | .qualified _ _ _ | .call _ _ _ | .function _ => rfl
  | .unary op operand _ => by
      cases op with
      | negate | plus => exact isUntypedInteger_expr operand
      | not | bitNot => rfl
  | .binary left op right _ => by
      change (op.isArithmetic && _ && _) = (op.isArithmetic && left.isUntypedInteger && right.isUntypedInteger)
      rw [isUntypedInteger_expr left, isUntypedInteger_expr right]

@[simp] theorem isCall_expr (found : Expr) : (Unplaced.expr .float found).isCall = found.isCall := by
  cases found <;> rfl

@[simp] theorem coerce_value (found : Value) (source : Option Expr) (target : Ty) :
    (value found).coerce (source.map (Unplaced.expr .float)) target = value (found.coerce source target) := by
  cases found with
  | int n =>
      cases target with
      | float =>
          have untyped : (source.map (Unplaced.expr .float)).any (·.isUntypedInteger) = source.any (·.isUntypedInteger) := by
            cases source with
            | none => rfl
            | some expr => exact isUntypedInteger_expr expr
          unfold value Value.coerce
          dsimp only
          rw [untyped]
          split <;> rfl
      | _ => rfl
  | function found =>
      obtain ⟨_, _, _, _⟩ := found
      rfl
  | _ => rfl

theorem unify_value (left : Value) (leftExpr : Expr) (right : Value) (rightExpr : Expr) :
    Value.unify (value left) (Unplaced.expr .float leftExpr) (value right) (Unplaced.expr .float rightExpr)
      = (value (Value.unify left leftExpr right rightExpr).1, value (Value.unify left leftExpr right rightExpr).2) := by
  have untyped : ∀ (condition : Bool) (n : Int64), value (if condition then .float (floatOfInt n) else .int n)
      = if condition then .float (floatOfInt n) else .int n := by
    intro condition n
    cases condition <;> rfl
  cases left with
  | int n =>
      cases right with
      | float x =>
          simp only [value, Value.unify, isUntypedInteger_expr, untyped]
      | _ => rfl
  | float x =>
      cases right with
      | int n => simp only [value, Value.unify, isUntypedInteger_expr, untyped]
      | _ => rfl
  | _ => rfl

theorem asBool_value (found : Value) (location : Location) :
    (value found).asBool Location.nowhere = outcome id (found.asBool location) := by
  cases found <;> rfl

theorem equals_value (left right : Value) (location : Location) :
    (value left).equals (value right) Location.nowhere = outcome id (left.equals right location) := by
  cases left <;> cases right <;> rfl

section

variable {op : BinaryOp} {location : Location}

theorem intOp_value {a b : Int64} : Value.intOp op a b Location.nowhere = outcome value (Value.intOp op a b location) := by
  cases op with
  | divide | remainder | shiftLeft | shiftRight =>
      unfold Value.intOp
      dsimp only
      split
      · rfl
      · first | rfl | (split <;> rfl)
  | _ => rfl

theorem floatOp_value {a b : Float} :
    Value.floatOp op a b Location.nowhere = outcome value (Value.floatOp op a b location) := by
  cases op with
  | divide =>
      unfold Value.floatOp
      dsimp only
      split <;> rfl
  | less | lessEqual | greater | greaterEqual =>
      unfold Value.floatOp
      dsimp only
      cases Value.floatOrder? a b <;> rfl
  | add | subtract | multiply => rfl
  | _ =>
      unfold Value.floatOp
      dsimp only
      cases Value.floatOrder? a b <;> rfl

theorem stringOp_value {a b : String} :
    Value.stringOp op a b Location.nowhere = outcome value (Value.stringOp op a b location) := by
  cases op <;> rfl

theorem boolOp_value {a b : Bool} :
    Value.boolOp op a b Location.nowhere = outcome value (Value.boolOp op a b location) := by
  cases op <;> rfl

end

theorem binary_value (op : BinaryOp) (left right : Value) (location : Location) :
    Value.binary op (value left) (value right) Location.nowhere = outcome value (Value.binary op left right location) := by
  unfold Value.binary
  split
  · rw [equals_value left right location]
    cases left.equals right location <;> rfl
  · rw [equals_value left right location]
    cases left.equals right location <;> rfl
  · cases left <;> cases right <;> first | rfl | exact intOp_value | exact floatOp_value | exact stringOp_value | exact boolOp_value

theorem unary_value (op : UnaryOp) (operand : Value) (location : Location) :
    Value.unary op (value operand) Location.nowhere = outcome value (Value.unary op operand location) := by
  cases op <;> cases operand <;> rfl

mutual

theorem render_value : (found : Value) → (value found).render = found.render
  | .tuple found => by
      unfold value Value.render
      rw [renderAll_values found]
  | .int _ | .float _ | .string _ | .bool _ | .function _ | .builtin _ | .nilFunction | .package _ | .unit => rfl

theorem renderAll_values : (found : List Value) → Value.renderAll (values found) = Value.renderAll found
  | [] => rfl
  | first :: rest => by
      unfold values Value.renderAll
      rw [render_value first, renderAll_values rest]

end

theorem isText_value (found : Value) : Builtin.isText (value found) = Builtin.isText found := by
  cases found <;> rfl

theorem joined_values (args : List Value) : Builtin.joined (args.map value) = Builtin.joined args := by
  fun_induction Builtin.joined args with
  | case1 => rfl
  | case2 found => exact render_value found
  | case3 first second rest gap ih =>
      rw [List.map_cons, List.map_cons, Builtin.joined, ← List.map_cons, ih, isText_value, isText_value, render_value]

theorem call_values (function : Builtin) (args : List Value) (location : Location) :
    function.call (args.map value) Location.nowhere
      = outcome (fun found => (found.1.map value, found.2)) (function.call args location) := by
  cases function with
  | len =>
      match args with
      | [] => rfl
      | [found] => cases found <;> rfl
      | first :: second :: rest =>
          -- The error tells the number of arguments, which no erasure changes.
          have count : ((first :: second :: rest).map value).length = (first :: second :: rest).length := List.length_map _
          have refused := congrArg (fun count => (Except.error (.argumentCount "len" 1 count Location.nowhere)
            : Except RuntimeError (List Value × String))) count
          cases first <;> exact refused
  | println | sprintln =>
      unfold Builtin.call Builtin.spaced
      rw [← values_eq_map, renderAll_values]
      rfl
  | print | sprint =>
      unfold Builtin.call
      rw [joined_values]
      rfl

/-! ## Operations on stores -/

theorem findIn_bindings (name : String) (found : List (String × Binding)) :
    Scope.findIn name (bindings found) = (Scope.findIn name found).map binding := by
  induction found with
  | nil => rfl
  | cons entry rest ih =>
      change (if entry.1 == name then some (binding entry.2) else Scope.findIn name (bindings rest))
        = (if entry.1 == name then some entry.2 else Scope.findIn name rest).map binding
      rw [ih]
      split <;> rfl

theorem insertIn_bindings (name : String) (added : Binding) (found : List (String × Binding)) :
    Scope.insertIn name (binding added) (bindings found) = bindings (Scope.insertIn name added found) := by
  induction found with
  | nil => rfl
  | cons entry rest ih =>
      change (if entry.1 == name then (name, binding added) :: bindings rest
          else (entry.1, binding entry.2) :: Scope.insertIn name (binding added) (bindings rest))
        = bindings (if entry.1 == name then (name, added) :: rest else entry :: Scope.insertIn name added rest)
      rw [ih]
      split <;> rfl

@[simp] theorem find?_scope (found : Scope) (name : String) : (scope found).find? name = (found.find? name).map binding :=
  findIn_bindings name found.bindings

theorem insert_scope (found : Scope) (name : String) (added : Binding) :
    (scope found).insert name (binding added) = scope (found.insert name added) :=
  congrArg Scope.mk (insertIn_bindings name added found.bindings)

section

variable (found : Store) (env : Env) (name : String)

@[simp] theorem scope_store (id : ScopeId) : (store found).scope id = scope (found.scope id) := by
  unfold Store.scope store
  rw [Array.getD_eq_getD_getElem?, Array.getD_eq_getD_getElem?, Array.getElem?_map]
  cases found.scopes[id]? <;> rfl

theorem child_store : (store found).child env = ((found.child env).1, store (found.child env).2) := by
  unfold Store.child store
  simp only [Array.size_map, Array.map_push]
  rfl

theorem insert_store (id : ScopeId) (added : Binding) :
    (store found).modify id (·.insert name (binding added)) = store (found.modify id (·.insert name added)) := by
  unfold Store.modify store
  congr 1
  apply Array.ext_getElem?
  intro index
  rw [Array.getElem?_modify, Array.getElem?_map, Array.getElem?_map, Array.getElem?_modify]
  split
  · cases found.scopes[index]? with
    | none => rfl
    | some other => exact congrArg some (insert_scope other name added)
  · rfl

theorem bind_store (added : Binding) :
    (store found).bind env name (binding added) = store (found.bind env name added) := by
  unfold Store.bind
  split
  · rfl
  · cases env with
    | nil => rfl
    | cons id outer => exact insert_store found name id added

theorem find?_store : (store found).find? env name = (found.find? env name).map fun entry => (entry.1, binding entry.2) := by
  induction env with
  | nil => rfl
  | cons id outer ih =>
      unfold Store.find?
      rw [scope_store, find?_scope, ih]
      cases (found.scope id).find? name <;> rfl

theorem get?_store : (store found).get? env name = (found.get? env name).map value := by
  unfold Store.get?
  rw [find?_store]
  cases found.find? env name <;> rfl

theorem getLocal?_store : (store found).getLocal? env name = (found.getLocal? env name).map value := by
  cases env with
  | nil => rfl
  | cons id outer =>
      unfold Store.getLocal?
      dsimp only
      rw [scope_store, find?_scope]
      cases (found.scope id).find? name <;> rfl

theorem hasLocal_store : (store found).hasLocal env name = found.hasLocal env name := by
  cases env with
  | nil => rfl
  | cons id outer =>
      unfold Store.hasLocal
      dsimp only
      rw [scope_store, find?_scope, Option.isSome_map]

theorem target_store (location : Location) :
    (store found).target env name Location.nowhere = outcome id (found.target env name location) := by
  unfold Store.target
  rw [find?_store]
  cases found.find? env name with
  | none => rfl
  | some entry =>
      obtain ⟨id, other⟩ := entry
      dsimp only [Option.map_some, binding]
      split <;> rfl

theorem write_store (id : ScopeId) (added : Value) :
    (store found).write id name (value added) = store (found.write id name added) :=
  insert_store found name id ⟨added, true⟩

end

end MiniGo.Placeless
