import Mathlib
import MiniGo.Check.Scoping

/-!
# Code whose names are resolved

What it means that every name of a piece of code has a declaration, said without the walk of the
checker and without a run. A context holds a layer for every scope around the code, the innermost
first; a layer holds the names that are certain to be there when the code runs.

* `Resolves` finds the layer of a name and how many layers are passed on the way.
* `Used` adds that the checker recorded the same.
* `Judged` follows the tree and changes the context as declarations do.

A function captures its context: the blocks around it may go on and declare more names before it is
called, so nothing is known of the names that a captured layer does not have.
-/

namespace MiniGo.Lexical

/-- What opened a scope. -/
def kindIn? (table : SymbolTable) (scope : Nat) : Option BlockKind :=
  (table.scopes[scope]?).map (·.kind)

/-- What the checker found out about a package: the table that it ended with, and the packages that
it was checked against. -/
structure Facts where
  table : SymbolTable
  imports : Interfaces

namespace Facts

/-- A scope has a symbol of this name in the end. -/
def Declares (facts : Facts) (scope : Nat) (name : String) : Prop :=
  (facts.table.findIn? scope name).isSome

/-- A package shows a name to its importers. -/
def Shows (facts : Facts) (path name : String) : Prop :=
  ((facts.imports.lookup path).bind (·.member? name)).isSome

/-- What opened a scope. -/
def kind? (facts : Facts) (scope : Nat) : Option BlockKind := kindIn? facts.table scope

end Facts

/-- The scope of all packages, of a package or of a file; it is complete before code is checked. -/
def isOuter : BlockKind → Bool
  | .outermost | .package _ | .file _ => true
  | _ => false

/-- The scope of a function. -/
def isFunction : BlockKind → Bool
  | .function _ => true
  | _ => false

/-- What a name stands for: a value, or a package by its path. -/
inductive Meaning where
  | value
  | package (path : String)

/-- How a layer can change while the code inside it runs: only by that code, by what follows a
function that captured it, or not at all beyond what is declared. -/
inductive Mode where
  | own
  | captured
  | outer
deriving DecidableEq

/-- A scope around a piece of code, with the names that are certain to be bound in it. -/
structure Layer where
  scope : Nat
  mode : Mode
  names : String → Option Meaning

/-- The scopes around a piece of code, the innermost first. -/
abbrev Context := List Layer

namespace Layer

def fresh (scope : Nat) : Layer := ⟨scope, .own, fun _ => none⟩

/-- A layer behind the declaration of a variable; the blank name declares nothing. -/
def add (layer : Layer) (name : String) : Layer :=
  if name = blankName then layer
  else { layer with names := fun other => if other = name then some .value else layer.names other }

def capture (layer : Layer) : Layer :=
  match layer.mode with
  | .own => { layer with mode := .captured }
  | _ => layer

end Layer

namespace Context

def scopes (context : Context) : List Nat := context.map (·.scope)

def enter (scope : Nat) (context : Context) : Context := .fresh scope :: context

def capture (context : Context) : Context := List.map Layer.capture context

def add : Context → String → Context
  | [], _ => []
  | layer :: outer, name => layer.add name :: outer

def addAll (context : Context) (names : List String) : Context := names.foldl add context

/-- What a name stands for in the innermost scope. -/
def here : Context → String → Option Meaning
  | [], _ => none
  | layer :: _, name => layer.names name

end Context

/-! ## Names -/

/-- The layer that a name is found in, by the number of layers before it. A complete scope that is
passed never declares the name; a captured one may do so later. -/
inductive Resolves (facts : Facts) (name : String) : Context → Nat → Meaning → Prop where
  | here {layer : Layer} {outer : Context} {meaning : Meaning} :
      layer.names name = some meaning → Resolves facts name (layer :: outer) 0 meaning
  | outward {layer : Layer} {outer : Context} {depth : Nat} {meaning : Meaning} :
      layer.names name = none → (layer.mode = .outer → ¬ facts.Declares layer.scope name) →
      Resolves facts name outer depth meaning →
      Resolves facts name (layer :: outer) (depth + 1) meaning

/-- Captured layers are blocks, and each has a function inside it. -/
def Nested (facts : Facts) (context : Context) : Prop :=
  ∀ (position : Nat) (layer : Layer), context[position]? = some layer → layer.mode = .captured →
    (∃ kind, facts.kind? layer.scope = some kind ∧ isOuter kind = false) ∧
    ∃ nearer < position, ∃ inner kind,
      context[nearer]? = some inner ∧ facts.kind? inner.scope = some kind ∧ isFunction kind = true

/-- A name is resolved, and the checker found it in the same scope. -/
def Used (facts : Facts) (context : Context) (name : String) (location : Location)
    (meaning : Meaning) : Prop :=
  Nested facts context ∧
  ∃ depth, facts.table.uses ⟨name, location, context.scopes, depth⟩ ∧
    Resolves facts name context depth meaning

/-- A scope is the one that the checker entered inside the scopes of a context. -/
def Enters (facts : Facts) (context : Context) (scope : Nat) : Prop :=
  scope ≠ 0 ∧ facts.table.chain scope = scope :: context.scopes

/-- A name can be declared in the innermost scope. -/
def Gets (facts : Facts) (context : Context) (name : String) : Prop :=
  name = blankName ∨
    (context.here name = none ∧ ∃ layer, context.head? = some layer ∧ facts.Declares layer.scope name)

/-- Names can be declared one after another in the innermost scope. -/
def GetsAll (facts : Facts) (context : Context) : List String → Prop
  | [] => True
  | name :: names => Gets facts context name ∧ GetsAll facts (context.add name) names

/-- Each name of a short declaration is new or is a variable of the innermost scope. -/
def Defines (facts : Facts) (location : Location) (context : Context) : List String → Prop
  | [] => True
  | name :: names =>
      (Gets facts context name ∨
        (context.here name = some .value ∧ Used facts context name location .value)) ∧
      Defines facts location (context.add name) names

/-- Each target of an assignment is blank or resolved. -/
def Assigned (facts : Facts) (context : Context) (location : Location) (targets : List String) :
    Prop :=
  ∀ name ∈ targets, name ≠ blankName → Used facts context name location .value

/-- A type that has values. -/
def Inhabits : Ty → Prop
  | .named _ => False
  | _ => True

/-- The types of results have values, and either all results have names or none has. -/
def SignatureJudged (signature : Signature) : Prop :=
  (∀ type ∈ signature.results, Inhabits type) ∧
  (signature.resultNames = [] ∨ signature.resultNames.length = signature.results.length)

/-! ## Code -/

/-- The names that a statement declares in the scope that it stands in. -/
def declared : Stmt → List String
  | .declare decl => decl.names
  | .define names _ _ => names
  | _ => []

/-- The names that a statement declares, if there is one. -/
def declaredBy : Option Stmt → List String
  | none => []
  | some stmt => declared stmt

namespace Judged

mutual

/-- Every name of an expression is resolved. -/
def expr (facts : Facts) (context : Context) : Expr → Prop
  | .integer _ | .float _ | .string _ => True
  | .identifier name location => Used facts context name location .value
  | .qualified package name location =>
      isExported name = true ∧
        ∃ path, Used facts context package location (.package path) ∧ facts.Shows path name
  | .binary left _ right _ => expr facts context left ∧ expr facts context right
  | .unary _ operand _ => expr facts context operand
  | .call callee args _ => expr facts context callee ∧ exprs facts context args
  | .function literal => function facts context literal

def exprs (facts : Facts) (context : Context) : List Expr → Prop
  | [] => True
  | first :: rest => expr facts context first ∧ exprs facts context rest

/-- Every name of an expression is resolved, if there is one. -/
def optionalExpr (facts : Facts) (context : Context) : Option Expr → Prop
  | none => True
  | some found => expr facts context found

/-- Every name of a function is resolved in the context that it captures. -/
def function (facts : Facts) (context : Context) : FunctionLiteral → Prop
  | ⟨signature, body, _⟩ =>
      SignatureJudged signature ∧
      ∃ scope, Enters facts context scope ∧
        let inner := (context.capture).enter scope
        let names := signature.params.map (·.name) ++ signature.resultNames
        GetsAll facts inner names ∧ stmts facts (inner.addAll names) body

/-- Every name of a declaration is resolved; its own names are declared behind its values. -/
def valueDecl (facts : Facts) (context : Context) : ValueDecl → Prop
  | ⟨_, names, type?, values, _⟩ =>
      exprs facts context values ∧ (∀ type, type? = some type → Inhabits type) ∧
        GetsAll facts context names

def ifStmt (facts : Facts) (context : Context) : IfStmt → Prop
  | ⟨init, condition, body, orElse, _⟩ =>
      ∃ scope, Enters facts context scope ∧ optionalStmt facts (context.enter scope) init ∧
        let inner := (context.enter scope).addAll (declaredBy init)
        expr facts inner condition ∧
        (∃ block, Enters facts inner block ∧ stmts facts (inner.enter block) body) ∧
        elseBranch facts inner orElse

/-- Every name of what follows the body of a conditional statement is resolved. -/
def elseBranch (facts : Facts) (context : Context) : ElseBranch → Prop
  | .absent => True
  | .block body => ∃ block, Enters facts context block ∧ stmts facts (context.enter block) body
  | .chain next => ifStmt facts context next

def caseLabel (facts : Facts) (context : Context) : CaseLabel → Prop
  | .values values => exprs facts context values
  | .otherwise => True

def cases (facts : Facts) (context : Context) : List SwitchCase → Prop
  | [] => True
  | ⟨label, body, _⟩ :: rest =>
      caseLabel facts context label ∧
      (∃ block, Enters facts context block ∧ stmts facts (context.enter block) body) ∧
      cases facts context rest

/-- Every name of a statement is resolved, and the names that it declares are new. -/
def stmt (facts : Facts) (context : Context) : Stmt → Prop
  | .declare decl => valueDecl facts context decl
  | .define names values location =>
      exprs facts context values ∧ Defines facts location context names
  | .assign targets values location =>
      exprs facts context values ∧ Assigned facts context location targets
  | .compound target op value location =>
      expr facts context value ∧ Used facts context target location .value ∧
        op.isArithmetic = true
  | .step target _ location => Used facts context target location .value
  | .ifElse found => ifStmt facts context found
  | .loop init condition post body _ =>
      ∃ scope, Enters facts context scope ∧ optionalStmt facts (context.enter scope) init ∧
        let inner := (context.enter scope).addAll (declaredBy init)
        optionalExpr facts inner condition ∧ optionalStmt facts inner post ∧
        declaredBy post = [] ∧
        ∃ block, Enters facts inner block ∧ stmts facts (inner.enter block) body
  | .switch init tag found _ =>
      ∃ scope, Enters facts context scope ∧ optionalStmt facts (context.enter scope) init ∧
        let inner := (context.enter scope).addAll (declaredBy init)
        optionalExpr facts inner tag ∧ cases facts inner found
  | .return values _ => exprs facts context values
  | .break _ | .continue _ => True
  | .block body => ∃ block, Enters facts context block ∧ stmts facts (context.enter block) body
  | .expression found => expr facts context found

/-- Every name of some statements is resolved, each behind the declarations before it. -/
def stmts (facts : Facts) (context : Context) : List Stmt → Prop
  | [] => True
  | first :: rest =>
      stmt facts context first ∧ stmts facts (context.addAll (declared first)) rest

/-- Every name of a statement is resolved, if there is one. -/
def optionalStmt (facts : Facts) (context : Context) : Option Stmt → Prop
  | none => True
  | some found => stmt facts context found

end

end Judged

/-! ## Declarations in a context -/

theorem mode_add (layer : Layer) (name : String) : (layer.add name).mode = layer.mode := by
  unfold Layer.add
  split <;> rfl

theorem scope_add (layer : Layer) (name : String) : (layer.add name).scope = layer.scope := by
  unfold Layer.add
  split <;> rfl

/-- Declaring a variable that is there changes nothing. -/
theorem add_of_here {context : Context} {name : String} (here : context.here name = some .value) :
    context.add name = context := by
  cases context with
  | nil => rfl
  | cons layer outer =>
      have same : layer.add name = layer := by
        unfold Layer.add
        split
        · rfl
        · have names : (fun other => if other = name then some Meaning.value else layer.names other)
              = layer.names := by
            funext other
            by_cases this : other = name
            · rw [if_pos this, this]
              exact here.symm
            · rw [if_neg this]
          rw [names]
      exact congrArg (· :: outer) same

@[simp] theorem add_blank (context : Context) : context.add blankName = context := by
  cases context with
  | nil => rfl
  | cons layer outer => simp [Context.add, Layer.add]

end MiniGo.Lexical
