import MiniGo.Eval.Machine
import MiniGo.Text.CharClass

/-!
# Running code

Expressions, statements and calls as computations on a machine. Every function takes fuel, which
bounds the length of the run and is spent by one at each step inward and at each round of a loop;
running out of it is kept apart from the errors of the program. `limit` is the greatest number of
calls that may be active at once.

Operands, arguments and values are evaluated from left to right, all of them before anything is
assigned.
-/

namespace MiniGo

inductive Flow where
  | normal
  | break
  | continue
  | return (values : List Value)

namespace Eval

/-- A name behind a point: it is looked up in a package, which exports it. -/
def qualified (env : Env) (package name : String) (location : Location) : Eval Value := do
  meet (.selected env package name location)
  match ← lookup? env package location with
  | some (.package found) =>
      if isExported name then do
        match ← lookupLocal? [found.scope] name with
        | some value => pure value
        | none => fail (.undefined (package ++ "." ++ name) location)
      else fail (.undefined (package ++ "." ++ name) location)
  | none => fail (.undefined (package ++ "." ++ name) location)
  | some other => fail (.mismatch (.notImport package name other.kind) location)

def literalName : Eval String := do
  match ← frame? with
  | some frame => pure (frame.function ++ ".func")
  | none => pure "init.func"

/-- Writes an existing variable, which keeps its kind. -/
def storeValue (env : Env) (name : String) (value : Value) (source : Option Expr)
    (location : Location) : Eval Unit := do
  -- A name without a binding is reported as such, whatever value was to be written.
  let current ← lookup env name location
  let value := match current with
    | .float _ => value.coerce source .float
    | _ => value
  if current.kind = value.kind then assign env name value location
  else fail (.mismatch (.stored value.kind current.kind) location)

/-- Writes variables, the first value to the first name; the blank name takes its value and drops
it. -/
def storeValues (env : Env) (location : Location) : List String → List (Value × Option Expr) → Eval Unit
  | name :: names, (value, source) :: rest => do
      if name == blankName then pure () else storeValue env name value source location
      storeValues env location names rest
  | _, _ => pure ()

/-- Declares the names that the innermost scope does not have yet and writes the others. -/
def defineValues (env : Env) (location : Location) : List String → List (Value × Option Expr) → Eval Unit
  | name :: names, (value, source) :: rest => do
      if name == blankName then pure ()
      -- Only the innermost scope counts here; a binding further out is hidden by the new one.
      else if ← hasLocal env name then storeValue env name value source location
      else bind env name value true
      defineValues env location names rest
  | _, _ => pure ()

def bindValues (env : Env) (mutable : Bool) (type? : Option Ty) :
    List String → List Value → Eval Unit
  | name :: names, value :: values => do
      bindTyped env name type? value mutable
      bindValues env mutable type? names values
  | _, _ => pure ()

/-- The value of a declared name: converted to the declared type, which it has to fit. -/
def declaredValue (type? : Option Ty) (location : Location) (value : Value)
    (source : Option Expr) : Eval Value :=
  match type? with
  | none => pure value
  | some type =>
      let value := value.coerce source type
      if value.conformsTo type then pure value
      else fail (.mismatch (.slot value.kind type .declared) location)

def declaredValues (type? : Option Ty) (location : Location) :
    List (Value × Option Expr) → Eval (List Value)
  | [] => pure []
  | (value, source) :: rest => do
      let first ← declaredValue type? location value source
      let others ← declaredValues type? location rest
      pure (first :: others)

/-- The values of a return statement: each converted to the type of its result, which it has to
fit. -/
def returnedValues (location : Location) : List Ty → List (Value × Option Expr) → Eval (List Value)
  | type :: types, (value, source) :: rest => do
      let value := value.coerce source type
      if value.conformsTo type then do
        let others ← returnedValues location types rest
        pure (value :: others)
      else
        let here := (source.bind (·.location?)).getD location
        fail (.mismatch (.slot value.kind type .returned) here)
  | _, _ => pure []

def coerceArguments : List Parameter → List (Value × Option Expr) → List Value
  | param :: params, (value, source) :: rest =>
      value.coerce source param.type :: coerceArguments params rest
  | [], rest => rest.map (·.1)
  | _, [] => []

/-- Binds parameters to arguments, which have to fit their types. -/
def bindParameters (env : Env) (function : String) (location : Location) :
    List Parameter → List Value → Eval Unit
  | param :: params, arg :: args => do
      -- A misfit stops in the middle: the parameters before it are bound by then.
      if arg.conformsTo param.type then bindTyped env param.name (some param.type) arg true
      else fail (.mismatch (.slot arg.kind param.type (.argument function)) location)
      bindParameters env function location params args
  | _, _ => pure ()

def bindResults (env : Env) : List String → List Ty → Eval Unit
  | name :: names, type :: types => do
      bindTyped env name (some type) (.zero type) true
      bindResults env names types
  | _, _ => pure ()

def namedResults (env : Env) : List String → List Ty → Eval (List Value)
  | name :: names, type :: types => do
      let value ← lookupLocal? env name
      let others ← namedResults env names types
      pure (value.getD (.zero type) :: others)
  | _, _ => pure []

/-- The results of a call whose body finished: a bare return gives the named results. -/
def resultsOf (env : Env) (signature : Signature) : Flow → Eval (List Value)
  | .return [] =>
      if signature.resultNames.isEmpty then pure []
      else namedResults env signature.resultNames signature.results
  | .return values => pure values
  | _ => pure []

def stepped (name : String) (up : Bool) (location : Location) : Value → Eval Value
  | .int n => pure (.int (if up then n + 1 else n - 1))
  | .float x => pure (.float (if up then x + 1.0 else x - 1.0))
  | other => fail (.mismatch (.notNumeric name up other.kind) location)

def defaultCase (cases : List SwitchCase) : Option SwitchCase :=
  cases.find? fun found =>
    match found.label with
    | .otherwise => true
    | .values _ => false

theorem mem_of_chosen {selected : Option SwitchCase} {cases : List SwitchCase} {found : SwitchCase}
    (inside : ∀ first, selected = some first → first ∈ cases)
    (chosen : selected.or (defaultCase cases) = some found) : found ∈ cases := by
  cases selected with
  | some first =>
      obtain rfl : first = found := Option.some.inj chosen
      exact inside first rfl
  | none => exact List.mem_of_find?_eq_some chosen

mutual

/-- Evaluates an expression to one value. -/
def evaluate (limit : Nat) : Nat → Env → Expr → Eval Value
  | 0, _, _ => exhausted
  | fuel + 1, env, expr =>
      match expr with
      | .integer value => pure (.int value)
      | .float value => pure (.float value)
      | .string value => pure (.string value)
      | .identifier name location => do
          match ← lookup? env name location with
          | some (.package _) => fail (.mismatch (.bareImport name) location)
          | some value => pure value
          | none => fail (.undefined name location)
      | .qualified package name location => qualified env package name location
      -- The right operand is evaluated only when the left one does not settle the outcome.
      | .binary left .and right location => do
          if ← condition limit fuel env left location then do
            let outcome ← condition limit fuel env right location
            pure (.bool outcome)
          else pure (.bool false)
      | .binary left .or right location => do
          if ← condition limit fuel env left location then pure (.bool true)
          else do
            let outcome ← condition limit fuel env right location
            pure (.bool outcome)
      | .binary left op right location => do
          let leftValue ← evaluate limit fuel env left
          let rightValue ← evaluate limit fuel env right
          -- The expressions tell which integers are untyped and may turn into floats.
          let (leftValue, rightValue) := Value.unify leftValue left rightValue right
          ofExcept (Value.binary op leftValue rightValue location)
      | .unary op operand location => do
          let value ← evaluate limit fuel env operand
          ofExcept (Value.unary op value location)
      | .call callee args location => do
          match ← call limit fuel env callee args location with
          | [value] => pure value
          | [] => fail (.noValue location)
          | values => fail (.multiValue values.length location)
      | .function literal => do
          let name ← literalName
          makeClosure name literal env
termination_by structural fuel => fuel

def condition (limit : Nat) : Nat → Env → Expr → Location → Eval Bool
  | 0, _, _, _ => exhausted
  | fuel + 1, env, expr, location => do
      let value ← evaluate limit fuel env expr
      ofExcept (value.asBool (expr.location?.getD location))
termination_by structural fuel => fuel

/-- Evaluates a list of expressions. A call that stands alone gives all of its results; a value
keeps its expression when it has one of its own. -/
def values (limit : Nat) : Nat → Env → List Expr → Eval (List (Value × Option Expr))
  | 0, _, _ => exhausted
  | fuel + 1, env, exprs =>
      match exprs with
      | [.call callee args location] => do
          match ← call limit fuel env callee args location with
          -- One result has the call as its expression; several have no expression of their own.
          | [value] => pure [(value, some (.call callee args location))]
          | results => pure (results.map fun value => (value, none))
      | exprs => eachValue limit fuel env exprs
termination_by structural fuel => fuel

def eachValue (limit : Nat) : Nat → Env → List Expr → Eval (List (Value × Option Expr))
  | 0, _, _ => exhausted
  | fuel + 1, env, exprs =>
      match exprs with
      | [] => pure []
      | expr :: rest => do
          let value ← evaluate limit fuel env expr
          let others ← eachValue limit fuel env rest
          pure ((value, some expr) :: others)
termination_by structural fuel => fuel

def call (limit : Nat) : Nat → Env → Expr → List Expr → Location → Eval (List Value)
  | 0, _, _, _, _ => exhausted
  | fuel + 1, env, callee, args, location => do
      let function ← evaluate limit fuel env callee
      -- The callee comes first, then the arguments, and only then whether the callee can be called.
      let received ← values limit fuel env args
      let given := match function with
        | .function closure => coerceArguments closure.literal.signature.params received
        | _ => received.map (·.1)
      let results ← apply limit fuel function given location
      -- The event is met after the results are there, so a call that fails leaves none.
      meet (.called (.call callee args location) function results)
      pure results
termination_by structural fuel => fuel

def apply (limit : Nat) : Nat → Value → List Value → Location → Eval (List Value)
  | 0, _, _, _ => exhausted
  | fuel + 1, function, args, location =>
      match function with
      | .function closure => enter limit fuel closure args location
      | .builtin found => callBuiltin found args location
      | .nilFunction => fail (.nilFunction location)
      | other => fail (.notCallable other.kind location)
termination_by structural fuel => fuel

/-- Calls a function value: counts of arguments and active calls are checked first, then the
arguments are bound in a scope of their own, where the body runs. -/
def enter (limit : Nat) : Nat → Closure → List Value → Location → Eval (List Value)
  | 0, _, _, _ => exhausted
  | fuel + 1, closure, args, location => do
      let signature := closure.literal.signature
      let active ← depth
      -- Neither of the two refusals opens a scope.
      if args.length ≠ signature.params.length then
        fail (.argumentCount closure.name signature.params.length args.length location)
      else if limit ≤ active then fail (.stackOverflow limit location)
      else do
        -- The scope opens inside the scopes of the literal, not inside those of the caller.
        let env ← openScope closure.env
        bindParameters env closure.name location signature.params args
        bindResults env signature.resultNames signature.results
        let flow ← inFrame ⟨closure.name, signature.results⟩
          (statements limit fuel env closure.literal.body)
        let results ← resultsOf env signature flow
        if results.length = signature.results.length then do
          meet (.returned closure results)
          pure results
        else fail (.returnCount closure.name signature.results.length results.length location)
termination_by structural fuel => fuel

def statements (limit : Nat) : Nat → Env → List Stmt → Eval Flow
  | 0, _, _ => exhausted
  | fuel + 1, env, body =>
      match body with
      | [] => pure .normal
      | first :: rest => do
          match ← statement limit fuel env first with
          | .normal => statements limit fuel env rest
          | flow => pure flow
termination_by structural fuel => fuel

def block (limit : Nat) : Nat → Env → List Stmt → Eval Flow
  | 0, _, _ => exhausted
  | fuel + 1, env, body => do
      let inner ← openScope env
      statements limit fuel inner body
termination_by structural fuel => fuel

/-- Runs the statement of a header, if there is one. -/
def header (limit : Nat) : Nat → Env → Option Stmt → Eval Unit
  | 0, _, _ => exhausted
  | fuel + 1, env, init =>
      match init with
      | none => pure ()
      | some init => do
          let _ ← statement limit fuel env init
          pure ()
termination_by structural fuel => fuel

def statement (limit : Nat) : Nat → Env → Stmt → Eval Flow
  | 0, _, _ => exhausted
  | fuel + 1, env, stmt =>
      match stmt with
      | .declare decl => do
          declare limit fuel env env decl
          pure .normal
      -- Counts are compared before anything is written, so a refusal writes no name.
      | .define names exprs location => do
          let received ← values limit fuel env exprs
          if received.length = names.length then do
            defineValues env location names received
            pure .normal
          else fail (.assignmentCount names.length received.length location)
      | .assign targets exprs location => do
          let received ← values limit fuel env exprs
          if received.length = targets.length then do
            storeValues env location targets received
            pure .normal
          else fail (.assignmentCount targets.length received.length location)
      -- The target is read before the operand is evaluated, and written last.
      | .compound target op expr location => do
          let current ← lookup env target location
          let operand ← evaluate limit fuel env expr
          let operand := match current with
            | .float _ => operand.coerce (some expr) .float
            | _ => operand
          let updated ← ofExcept (Value.binary op current operand location)
          assign env target updated location
          pure .normal
      | .step target up location => do
          let current ← lookup env target location
          let updated ← stepped target up location current
          assign env target updated location
          pure .normal
      | .ifElse found => conditional limit fuel env found
      | .loop init guard post body location => do
          let scope ← openScope env
          header limit fuel scope init
          rounds limit fuel scope guard post body location
      | .switch init tag cases _ => do
          let scope ← openScope env
          header limit fuel scope init
          switch limit fuel scope tag cases
      | .return exprs location => returning limit fuel env exprs location
      | .break _ => pure .break
      | .continue _ => pure .continue
      | .block body => block limit fuel env body
      -- A call that stands alone may give any number of results.
      | .expression (.call callee args location) => do
          let _ ← call limit fuel env callee args location
          pure .normal
      | .expression expr => do
          let _ ← evaluate limit fuel env expr
          pure .normal
termination_by structural fuel => fuel

def conditional (limit : Nat) : Nat → Env → IfStmt → Eval Flow
  | 0, _, _ => exhausted
  | fuel + 1, env, found => do
      let scope ← openScope env
      header limit fuel scope found.init
      if ← condition limit fuel scope found.condition found.location then
        block limit fuel scope found.body
      else
        match found.orElse with
        | .absent => pure .normal
        | .block body => block limit fuel scope body
        | .chain next => conditional limit fuel scope next
termination_by structural fuel => fuel

def rounds (limit : Nat) : Nat → Env → Option Expr → Option Stmt → List Stmt → Location → Eval Flow
  | 0, _, _, _, _, _ => exhausted
  | fuel + 1, scope, guard, post, body, location => do
      if ← proceeds limit fuel scope guard location then do
        match ← block limit fuel scope body with
        | .break => pure .normal
        | .return results => pure (.return results)
        -- `continue` and the end of the body both go on with the last part of the header.
        | _ => do
            header limit fuel scope post
            rounds limit fuel scope guard post body location
      else pure .normal
termination_by structural fuel => fuel

/-- Whether a loop goes on; without a condition it does. -/
def proceeds (limit : Nat) : Nat → Env → Option Expr → Location → Eval Bool
  | 0, _, _, _ => exhausted
  | fuel + 1, scope, guard, location =>
      match guard with
      | none => pure true
      | some expr => condition limit fuel scope expr location
termination_by structural fuel => fuel

/-- Runs a switch statement in the scope of its header: the body of the first case with a value
that matches, else of the case without values. -/
def switch (limit : Nat) : Nat → Env → Option Expr → List SwitchCase → Eval Flow
  | 0, _, _, _ => exhausted
  | fuel + 1, scope, tag, cases => do
      let tagged ← tagValue limit fuel scope tag
      let selected ← select limit fuel scope tagged cases
      -- The case without values is tried last, wherever it stands among the cases.
      match selected.or (defaultCase cases) with
      | none => pure .normal
      | some found => do
          match ← block limit fuel scope found.body with
          -- A `break` ends here; a `continue` goes on to the loop around the switch.
          | .break => pure .normal
          | flow => pure flow
termination_by structural fuel => fuel

/-- The value of a tag with its expression, if there is a tag. -/
def tagValue (limit : Nat) : Nat → Env → Option Expr → Eval (Option (Value × Expr))
  | 0, _, _ => exhausted
  | fuel + 1, scope, tag =>
      match tag with
      | none => pure none
      | some expr => do
          let value ← evaluate limit fuel scope expr
          pure (some (value, expr))
termination_by structural fuel => fuel

/-- The first case with a value that matches. -/
def select (limit : Nat) : Nat → Env → Option (Value × Expr) → List SwitchCase → Eval (Option SwitchCase)
  | 0, _, _, _ => exhausted
  | fuel + 1, scope, tagged, cases =>
      match cases with
      | [] => pure none
      | first :: rest =>
          match first.label with
          | .otherwise => select limit fuel scope tagged rest
          | .values exprs => do
              if ← anyMatches limit fuel scope tagged first.location exprs then pure (some first)
              else select limit fuel scope tagged rest
termination_by structural fuel => fuel

/-- Whether one of some values matches; those behind it are not evaluated. -/
def anyMatches (limit : Nat) : Nat → Env → Option (Value × Expr) → Location → List Expr → Eval Bool
  | 0, _, _, _, _ => exhausted
  | fuel + 1, scope, tagged, location, exprs =>
      match exprs with
      | [] => pure false
      | expr :: rest => do
          if ← caseMatches limit fuel scope tagged location expr then pure true
          else anyMatches limit fuel scope tagged location rest
termination_by structural fuel => fuel

/-- Whether a value of a case matches: it equals the tag, or is true when there is none. -/
def caseMatches (limit : Nat) : Nat → Env → Option (Value × Expr) → Location → Expr → Eval Bool
  | 0, _, _, _, _ => exhausted
  | fuel + 1, scope, tagged, location, expr =>
      match tagged with
      | none => condition limit fuel scope expr location
      | some (tag, tagExpr) => do
          let candidate ← evaluate limit fuel scope expr
          -- The tag is turned for this case alone: the next case meets the value it had.
          let (tag, candidate) := Value.unify tag tagExpr candidate expr
          ofExcept (tag.equals candidate (expr.location?.getD location))
termination_by structural fuel => fuel

/-- Runs a return statement against the results of the innermost active call. -/
def returning (limit : Nat) : Nat → Env → List Expr → Location → Eval Flow
  | 0, _, _, _ => exhausted
  | fuel + 1, env, exprs, location =>
      match exprs with
      | [] => pure (.return [])
      | exprs => do
          -- Outside every call there is nothing to return to, and no value is expected.
          let frame := (← frame?).getD ⟨"", []⟩
          let received ← values limit fuel env exprs
          if received.length = frame.results.length then do
            let results ← returnedValues location frame.results received
            pure (.return results)
          else fail (.returnCount frame.function frame.results.length received.length location)
termination_by structural fuel => fuel

/-- Evaluates the values of a declaration in one environment and binds its names in another. -/
def declare (limit : Nat) : Nat → Env → Env → ValueDecl → Eval Unit
  | 0, _, _, _ => exhausted
  | fuel + 1, env, target, decl =>
      match decl.values with
      | [] =>
          match decl.type? with
          | some type =>
              bindValues target (!decl.isConst) (some type) decl.names (decl.names.map fun _ => .zero type)
          | none => fail (.mismatch .untyped decl.location)
      -- All values are computed and converted before the first name is bound.
      | exprs => do
          let received ← values limit fuel env exprs
          if received.length = decl.names.length then do
            let initial ← declaredValues decl.type? decl.location received
            bindValues target (!decl.isConst) decl.type? decl.names initial
          else fail (.assignmentCount decl.names.length received.length decl.location)
termination_by structural fuel => fuel

end

end Eval

end MiniGo
