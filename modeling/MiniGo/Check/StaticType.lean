import MiniGo.Check.Interface

/-!
# What is known of values before running

The type of an expression as far as its names and literals tell it, and from it the number of values
that an expression gives. Nothing is known of a call of something whose type is unknown.
-/

namespace MiniGo.Check

/-- The member of an imported package that a name behind a point means. -/
def member? (imports : Interfaces) (table : SymbolTable) (package name : String) : Option Member :=
  match table.symbol? package with
  | some ⟨_, .package path, _⟩ => (imports.lookup path).bind (·.member? name)
  | _ => none

/-- The type of an expression, where it is known. -/
def typeOf? (imports : Interfaces) (table : SymbolTable) : Expr → Option Ty
  | .integer _ => some .int
  | .float _ => some .float
  | .string _ => some .string
  | .identifier name _ => (table.symbol? name).bind (·.type?)
  | .qualified package name _ => (member? imports table package name).bind (·.type?)
  | .call callee _ _ =>
      match typeOf? imports table callee with
      | some (.func ⟨_, [result]⟩) => some result
      | _ => none
  | .function literal => some (.func literal.signature.type)
  | .unary .not _ _ => some .bool
  | .unary _ operand _ => typeOf? imports table operand
  | .binary left op right _ =>
      if op.isArithmetic then
        match typeOf? imports table left, typeOf? imports table right with
        -- An untyped integer beside a float becomes one, so one float is enough.
        | some .float, _ | _, some .float => some .float
        | left, right => left.or right
      else some .bool

/-- The types of the results of a call of an expression, where they are known. -/
def resultsOf? (imports : Interfaces) (table : SymbolTable) (callee : Expr) : Option (List Ty) :=
  match typeOf? imports table callee with
  | some (.func type) => some type.results
  | _ => none

/-- How many values an expression gives, where it is known. -/
def resultCount? (imports : Interfaces) (table : SymbolTable) : Expr → Option Nat
  | .call callee _ _ => (resultsOf? imports table callee).map List.length
  | _ => some 1

/-- The types of some values, each where it is known; a call that stands alone may give several. -/
def valueTypes (imports : Interfaces) (table : SymbolTable) (count : Nat) (values : List Expr) :
    List (Option Ty) :=
  match values with
  | [value] =>
      if count = 1 then [typeOf? imports table value]
      else
        match value with
        | .call callee _ _ =>
            match resultsOf? imports table callee with
            | some results => results.map some
            | none => List.replicate count none
        | _ => List.replicate count none
  | values => values.map (typeOf? imports table)

end MiniGo.Check
