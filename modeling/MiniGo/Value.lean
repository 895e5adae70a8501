import MiniGo.Error
import MiniGo.Tree
import MiniGo.Decimal.Layout

/-!
# Values

What expressions evaluate to. A function value is a literal together with the scopes that were open
where it was evaluated; functions and packages are told apart by identity, all other values by
content. Tuples are the packed results of calls and are never stored.
-/

namespace MiniGo

abbrev ScopeId := Nat

/-- The scopes that are open at a place in a program, the innermost first. -/
abbrev Env := List ScopeId

/-- Functions that are not written in the language. -/
inductive Builtin where
  | len
  | println
  | print
  | sprint
  | sprintln
deriving DecidableEq, Repr

def Builtin.name : Builtin → String
  | .len => "len"
  | .println => "Println"
  | .print => "Print"
  | .sprint => "Sprint"
  | .sprintln => "Sprintln"

/-- A function value. Every evaluation of a function literal makes one with an identity of its own. -/
structure Closure where
  identity : Nat
  name : String
  literal : FunctionLiteral
  env : Env

/-- A loaded package as an import sees it: its names are in one scope. -/
structure PackageRef where
  name : String
  path : String
  scope : ScopeId
deriving DecidableEq, Repr

inductive Value where
  | int (value : Int64)
  | float (value : Float)
  | string (value : String)
  | bool (value : Bool)
  | function (closure : Closure)
  | builtin (function : Builtin)
  /-- The zero value of a function type. -/
  | nilFunction
  | package (package : PackageRef)
  | tuple (values : List Value)
  | unit

instance : Inhabited Value := ⟨.unit⟩

/-- The float nearest to an integer. -/
def floatOfInt (n : Int64) : Float :=
  let magnitude := Decimal.nearestBits n.toInt.natAbs 1
  Float.ofBits (UInt64.ofNat (if n < 0 then magnitude + Decimal.signBit else magnitude))

namespace Value

def kind : Value → Kind
  | int _ => .int
  | float _ => .float
  | string _ => .string
  | bool _ => .bool
  | function _ | builtin _ | nilFunction => .func
  | package _ => .package
  | tuple _ => .tuple
  | unit => .unit

def conformsTo (value : Value) (type : Ty) : Bool := value.kind.fits type

def zero : Ty → Value
  | .int => int 0
  | .float => float 0.0
  | .string => string ""
  | .bool => bool false
  | .func _ => nilFunction
  | .named _ => unit

/-- Packs the results of a call: none is a unit, one is itself. -/
def ofResults : List Value → Value
  | [] => unit
  | [value] => value
  | values => tuple values

def asBool (value : Value) (location : Location) : Except RuntimeError Bool :=
  match value with
  | bool value => .ok value
  | other => .error (.mismatch (.condition other.kind) location)

/-- Two values compared by the language: only scalars of one kind can be. -/
def equals (left right : Value) (location : Location) : Except RuntimeError Bool :=
  match left, right with
  | int a, int b => .ok (a == b)
  | float a, float b => .ok (a == b)
  | string a, string b => .ok (a == b)
  | bool a, bool b => .ok (a == b)
  | a, b =>
      if a.kind = b.kind then .error (.mismatch (.comparison a.kind) location)
      else .error (.mismatch (.operands a.kind b.kind) location)

mutual

/-- The two values are the same: scalars and tuples by content, functions and packages by
identity. -/
def same : Value → Value → Bool
  | int a, int b => a == b
  | float a, float b => a == b
  | string a, string b => a == b
  | bool a, bool b => a == b
  | function a, function b => a.identity == b.identity
  | builtin a, builtin b => a == b
  | package a, package b => a.scope == b.scope
  | tuple a, tuple b => sameAll a b
  | nilFunction, nilFunction | unit, unit => true
  | _, _ => false

def sameAll : List Value → List Value → Bool
  | [], [] => true
  | a :: as, b :: bs => same a b && sameAll as bs
  | _, _ => false

end

mutual

/-- The printed form of a value. -/
def render : Value → String
  | int value => toString value.toInt
  | float value => Decimal.Layout.printed.render value
  | string value => value
  | bool value => if value then "true" else "false"
  | function closure => "func@" ++ closure.name
  | builtin found => "func@" ++ found.name
  | nilFunction => "<nil>"
  | package found => "package " ++ found.name
  | tuple values => " ".intercalate (renderAll values)
  | unit => ""

def renderAll : List Value → List String
  | [] => []
  | value :: values => value.render :: renderAll values

end

end Value

end MiniGo
