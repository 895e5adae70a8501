import MiniGo.Check.StaticType
import MiniGo.Check.Terminating
import MiniGo.Text.CharClass

/-!
# Checking code

Code is checked against the symbols that are declared where it stands: every name is declared before
it is used, only variables and parameters are assigned to, counts of values agree where they are
known, and every function with results ends in a terminating statement. Checking a declaration
declares its names; every scope that checking opens is closed again.

The walk visits code in the order in which it is written, and scopes open and close as they do in a
run; but a function is walked where it stands, not where it is called.
-/

namespace MiniGo

/-- A check that reads and changes the table of symbols, and may refuse the code. -/
abbrev Check := StateT SymbolTable (Except ResolutionError)

namespace Check

def fail (error : ResolutionError) : Check α := fun _ => .error error

/-- Refuses the code unless a condition holds. -/
def require (holds : Bool) (error : ResolutionError) : Check Unit :=
  if holds then pure () else fail error

def inScope (kind : BlockKind) (check : Check α) : Check α := do
  modify (·.enter kind)
  let outcome ← check
  modify (·.exit)
  pure outcome

def declareIn (scope : Nat) (symbol : Symbol) (location : Location) : Check Unit := fun table => do
  let (_, table) ← table.declareIn scope symbol location
  pure ((), table)

def declare (symbol : Symbol) (location : Location) : Check Unit := fun table => do
  let (_, table) ← table.declare symbol location
  pure ((), table)

/-- What a function asks of the statements in its body: its name, the number of its results, whether
they have names, and whether a loop or a switch is around the statement. -/
structure Body where
  function : String
  results : Nat
  namedResults : Bool
  inLoop : Bool
  inBreakable : Bool

def Body.ofFunction (name : String) (signature : Signature) : Body where
  function := name
  results := signature.results.length
  namedResults := !signature.resultNames.isEmpty
  inLoop := false
  inBreakable := false

def Body.inside (body : Body) : Body := { body with inLoop := true, inBreakable := true }

def Body.insideCase (body : Body) : Body := { body with inBreakable := true }

/-! ## Types -/

mutual

/-- Every name in a type is the name of a type. -/
def type (location : Location) : Ty → Except ResolutionError Unit
  | .named name => .error (.unknownType name location)
  | .func found => funcType location found
  | .int | .float | .string | .bool => .ok ()

def funcType (location : Location) : FuncType → Except ResolutionError Unit
  | ⟨params, results⟩ => do
      types location params
      types location results

def types (location : Location) : List Ty → Except ResolutionError Unit
  | [] => .ok ()
  | first :: rest => do
      type location first
      types location rest

end

def signature (signature : Signature) (location : Location) : Check Unit :=
  fun table => do
    types location (signature.params.map (·.type))
    types location signature.results
    pure ((), table)

/-! ## Names -/

/-- The symbol of a name that is read or written; the blank name has none. -/
def resolve (name : String) (location : Location) : Check Symbol := fun table =>
  match table.symbol? name with
  | some symbol =>
      if name == blankName then .error (.undefined name location)
      else .ok (symbol, table.used name location)
  | none => .error (.undefined name location)

/-- A name that is read is declared, and is no package. -/
def identifier (name : String) (location : Location) : Check Unit := do
  match (← resolve name location).kind with
  | .package _ => fail (.packageAsValue name location)
  | _ => pure ()

def assignable (name : String) (location : Location) : Check Unit := do
  let symbol ← resolve name location
  require symbol.kind.isAssignable (.notAssignable name location)

/-- Names that are written; the blank name takes any value. -/
def assignables (location : Location) : List String → Check Unit
  | [] => pure ()
  | name :: names => do
      if name == blankName then pure () else assignable name location
      assignables location names

def qualified (imports : Interfaces) (package name : String) (location : Location) : Check Unit := do
  match (← get).symbol? package with
  | none => fail (.undefined package location)
  | some ⟨_, .package path, _⟩ => do
      -- Only the package is a use of a name here; the name behind the point is no name of this file.
      modify (·.used package location)
      require (isExported name) (.unexported package name location)
      let known := ((imports.lookup path).bind (·.member? name)).isSome
      require known (.undefinedInPackage package name location)
  | some _ => fail (.unknownPackage package location)

/-! ## Counts of values -/

/-- How many values an expression gives, where that is known. -/
def count (imports : Interfaces) (expr : Expr) : Check (Option Nat) := fun table =>
  let count? := resultCount? imports table expr
  .ok (count?, table.counted expr count?)

/-- An expression that stands where one value is wanted gives one, where that is known. -/
def single (imports : Interfaces) (expr : Expr) : Check Unit := do
  let location := expr.location?.getD Location.nowhere
  match ← count imports expr with
  | some 0 => fail (.noValue location)
  | some 1 => pure ()
  | some count => fail (.multiValue count location)
  -- Nothing is known before running.
  | none => pure ()

/-- Every one of some expressions gives one value, where that is known. -/
def singles (imports : Interfaces) : List Expr → Check Unit
  | [] => pure ()
  | first :: rest => do
      single imports first
      singles imports rest

/-- As many values as targets; a call that stands alone may give several. -/
def valueCount (imports : Interfaces) (targets : Nat) (values : List Expr) (location : Location) :
    Check Unit := do
  match values with
  -- A call that stands alone may give a value for each target.
  | [value] =>
      match ← count imports value with
      | some found => require (found = targets) (.assignmentCount targets found location)
      | none => pure ()
  | values => do
      require (values.length = targets) (.assignmentCount targets values.length location)
      singles imports values

/-- As many values as the function has results; with named results there may be none. -/
def returnCount (imports : Interfaces) (body : Body) (values : List Expr) (location : Location) :
    Check Unit := do
  let agrees (found : Nat) : Check Unit :=
    require (found = body.results) (.returnCount body.function body.results found location)
  match values with
  | [] => if body.namedResults then pure () else agrees 0
  | [value] =>
      match ← count imports value with
      | some found => agrees found
      | none => pure ()
  -- Several values each have to be one value; only then their number is compared.
  | values => do
      singles imports values
      agrees values.length

/-! ## Declarations -/

def declareValues (scope : Nat) (kind : SymbolKind) (location : Location) :
    List String → List (Option Ty) → Check Unit
  | name :: names, type? :: types => do
      declareIn scope ⟨name, kind, type?⟩ location
      declareValues scope kind location names types
  | _, _ => pure ()

/-- Declares the names of a short declaration that the current scope does not have yet; the others
have to be assignable. Says whether there was a new one. -/
def defineValues (location : Location) : List String → List (Option Ty) → Check Bool
  | name :: names, type? :: types => do
      if name == blankName then defineValues location names types
      else
        let table ← get
        match (table.lookupCurrent? name).bind (table.symbols[·]?) with
        | some symbol => do
            modify (·.used name location)
            require symbol.kind.isAssignable (.notAssignable name location)
            defineValues location names types
        | none => do
            declare ⟨name, .var, type?⟩ location
            -- One new name is enough; those behind it are declared or checked all the same.
            let _ ← defineValues location names types
            pure true
  | _, _ => pure false

/-- The types of declared names: the written type, else those of the values. -/
def declaredTypes (imports : Interfaces) (table : SymbolTable) (names : List String)
    (type? : Option Ty) (values : List Expr) : List (Option Ty) :=
  match type?, values with
  | some type, _ => names.map fun _ => some type
  | none, [] => names.map fun _ => none
  | none, values => valueTypes imports table names.length values

def declareParameters (location : Location) : List Parameter → Check Unit
  | [] => pure ()
  | param :: params => do
      -- A name that stands twice in the list is redeclared.
      declare ⟨param.name, .parameter, some param.type⟩ location
      declareParameters location params

def declareResults (location : Location) : List String → List Ty → Check Unit
  | name :: names, type :: types => do
      declare ⟨name, .var, some type⟩ location
      declareResults location names types
  | _, _ => pure ()

/-! ## Code -/

def literalTitle : String := "func literal"

mutual

/-- Checks an expression. -/
def expression (imports : Interfaces) : Expr → Check Unit
  | .integer _ | .float _ | .string _ => pure ()
  | .identifier name location => identifier name location
  | .qualified package name location => qualified imports package name location
  | .binary left _ right _ => do
      expression imports left
      single imports left
      expression imports right
      single imports right
  | .unary _ operand _ => do
      expression imports operand
      single imports operand
  | .call callee args _ => do
      expression imports callee
      single imports callee
      arguments imports args
  | .function literal => function imports literalTitle true literal

def expressions (imports : Interfaces) : List Expr → Check Unit
  | [] => pure ()
  | first :: rest => do
      expression imports first
      expressions imports rest

def operands (imports : Interfaces) : List Expr → Check Unit
  | [] => pure ()
  | first :: rest => do
      expression imports first
      single imports first
      operands imports rest

/-- Checks an expression that gives one value, if there is one. -/
def optionalOperand (imports : Interfaces) : Option Expr → Check Unit
  | none => pure ()
  | some operand => do
      expression imports operand
      single imports operand

/-- Checks the arguments of a call; a call that stands alone may give several of them, but not
none. -/
def arguments (imports : Interfaces) : List Expr → Check Unit
  | [] => pure ()
  | [arg] => do
      expression imports arg
      -- A call that stands alone may hand on any number of values, as long as there are some.
      if arg.isCall then
        let found ← count imports arg
        require (found != some 0) (.noValue (arg.location?.getD Location.nowhere))
      else single imports arg
  -- From two arguments on none of them may give several values, calls included.
  | first :: second :: rest => do
      expression imports first
      single imports first
      expression imports second
      single imports second
      operands imports rest

/-- Checks a function in a scope of its own; the types of its signature are checked too, unless that
was done when its name was declared. -/
def function (imports : Interfaces) (name : String) (isLiteral : Bool) :
    FunctionLiteral → Check Unit
  | ⟨signature, body, location⟩ => do
      if isLiteral then Check.signature signature location
      -- Parameters, named results and body share one scope.
      inScope (.function name) do
        declareParameters location signature.params
        declareResults location signature.resultNames signature.results
        statements imports (.ofFunction name signature) body
      -- Whether the end is reached is asked last, when the body is known to be right.
      require (signature.results.isEmpty || isTerminatingList body) (.missingReturn name location)

def valueDecl (imports : Interfaces) (scope : Nat) : ValueDecl → Check Unit
  | ⟨isConst, names, type?, values, location⟩ => do
      match type? with
      | some found => fun table => do
          type location found
          pure ((), table)
      | none => pure ()
      expressions imports values
      if values.isEmpty then pure () else valueCount imports names.length values location
      -- The names are declared behind the values, which cannot use them.
      let types := declaredTypes imports (← get) names type? values
      declareValues scope (if isConst then .const else .var) location names types

def statement (imports : Interfaces) (body : Body) : Stmt → Check Unit
  | .declare decl => do
      let here := (← get).current
      valueDecl imports here decl
  | .define names values location => do
      expressions imports values
      valueCount imports names.length values location
      let types := valueTypes imports (← get) names.length values
      let isNew ← defineValues location names types
      require isNew (.noNewVariables location)
  -- The values come first, as in a short declaration; the targets are checked before the counts.
  | .assign targets values location => do
      expressions imports values
      assignables location targets
      valueCount imports targets.length values location
  -- The value comes first here too, other than in a run, where the target is read first.
  | .compound target _ value location => do
      expression imports value
      assignable target location
      valueCount imports 1 [value] location
  | .step target _ location => assignable target location
  | .ifElse found => conditional imports body found
  | .loop init condition post inner _ =>
      inScope .loop do
        optionalStatement imports body init
        optionalOperand imports condition
        -- Checked in front of the body, though it runs behind it: it sees the header only.
        optionalStatement imports body post
        inScope .block (statements imports body.inside inner)
  | .switch init tag found _ =>
      inScope .switch do
        optionalStatement imports body init
        optionalOperand imports tag
        cases imports body found
  | .return values location => do
      expressions imports values
      returnCount imports body values location
  | .break location => require body.inBreakable (.misplaced .break location)
  | .continue location => require body.inLoop (.misplaced .continue location)
  | .block inner => inScope .block (statements imports body inner)
  | .expression expr => expression imports expr

def statements (imports : Interfaces) (body : Body) : List Stmt → Check Unit
  | [] => pure ()
  | first :: rest => do
      statement imports body first
      statements imports body rest

/-- Checks a statement, if there is one. -/
def optionalStatement (imports : Interfaces) (body : Body) : Option Stmt → Check Unit
  | none => pure ()
  | some found => statement imports body found

def conditional (imports : Interfaces) (body : Body) : IfStmt → Check Unit
  | ⟨init, condition, inner, orElse, _⟩ =>
      inScope .conditional do
        optionalStatement imports body init
        expression imports condition
        single imports condition
        inScope .block (statements imports body inner)
        elseBranch imports body orElse

def elseBranch (imports : Interfaces) (body : Body) : ElseBranch → Check Unit
  | .absent => pure ()
  | .block inner => inScope .block (statements imports body inner)
  | .chain next => conditional imports body next

def caseLabel (imports : Interfaces) : CaseLabel → Check Unit
  | .values values => operands imports values
  | .otherwise => pure ()

def cases (imports : Interfaces) (body : Body) : List SwitchCase → Check Unit
  | [] => pure ()
  | ⟨label, inner, _⟩ :: rest => do
      caseLabel imports label
      -- Every case has a scope of its own, with that of the header around it.
      inScope .case (statements imports body.insideCase inner)
      cases imports body rest

end

end Check

end MiniGo
