/-!
# Types and kinds

A type is one of four basic types, a function type, or a name that no type has. A value is seen by
the type rules only through its kind, so all functions look alike.
-/

namespace MiniGo

mutual

/-- A type as it is written. -/
inductive Ty where
  | int
  | float
  | string
  | bool
  | func (type : FuncType)
  /-- A name that names no type. -/
  | named (name : String)

/-- The type of a function: the types of its parameters and of its results. -/
structure FuncType where
  params : List Ty
  results : List Ty

end

def Ty.ofName (name : String) : Ty :=
  if name == "int" then .int
  else if name == "float32" || name == "float64" then .float
  else if name == "string" then .string
  else if name == "bool" then .bool
  else .named name

/-- The written results of a function type, with a blank in front; one stands without
parentheses. -/
def renderResults : List String → String
  | [] => ""
  | [result] => " " ++ result
  | results => " (" ++ ", ".intercalate results ++ ")"

mutual

/-- The written form of a type. -/
def Ty.render : Ty → String
  | .int => "int"
  | .float => "float64"
  | .string => "string"
  | .bool => "bool"
  | .named name => name
  | .func type => type.render

def FuncType.render : FuncType → String
  | ⟨params, results⟩ =>
      "func(" ++ ", ".intercalate (Ty.renderAll params) ++ ")" ++ renderResults (Ty.renderAll results)

def Ty.renderAll : List Ty → List String
  | [] => []
  | type :: types => type.render :: Ty.renderAll types

end

/-- What the type rules see of a value. -/
inductive Kind where
  | int
  | float
  | string
  | bool
  | func
  | package
  | tuple
  | unit
deriving DecidableEq, Repr

def Kind.name : Kind → String
  | .int => "int"
  | .float => "float64"
  | .string => "string"
  | .bool => "bool"
  | .func => "func"
  | .package => "package"
  | .tuple => "tuple"
  | .unit => "()"

/-- A value of this kind may be stored where the type is declared. Function types are not told
apart, and no value has an unknown type. -/
def Kind.fits : Kind → Ty → Bool
  | .int, .int | .float, .float | .string, .string | .bool, .bool => true
  | .func, .func _ => true
  | _, _ => false

end MiniGo
