import MiniGo.Proofs.Package.Workspaces

/-!
# What the evaluator does next

Each function of the evaluator takes steps of its own and runs other functions (`Task`) with less fuel. A plan
says which, in which order; `plan` gives the plans of all functions, and `run_succ` says that they are what the
evaluator does. So statements about the moments that a run passes through need one case for each kind
of step (`Plan.Reaches`) and not one for each place in the evaluator.
-/

namespace MiniGo

/-- The frame of the calls of a function value. -/
def Closure.frame (closure : Closure) : Frame := ⟨closure.name, closure.literal.signature.results⟩

end MiniGo

namespace MiniGo.Running

/-- A function of the evaluator with its arguments. -/
inductive Task where
  | evaluate (env : Env) (expr : Expr)
  | condition (env : Env) (expr : Expr) (location : Location)
  | values (env : Env) (exprs : List Expr)
  | eachValue (env : Env) (exprs : List Expr)
  | call (env : Env) (callee : Expr) (args : List Expr) (location : Location)
  | apply (function : Value) (args : List Value) (location : Location)
  | enter (closure : Closure) (args : List Value) (location : Location)
  | statements (env : Env) (body : List Stmt)
  | block (env : Env) (body : List Stmt)
  | header (env : Env) (init : Option Stmt)
  | statement (env : Env) (stmt : Stmt)
  | conditional (env : Env) (found : IfStmt)
  | rounds (scope : Env) (guard : Option Expr) (post : Option Stmt) (body : List Stmt) (location : Location)
  | proceeds (scope : Env) (guard : Option Expr) (location : Location)
  | switch (scope : Env) (tag : Option Expr) (cases : List SwitchCase)
  | tagValue (scope : Env) (tag : Option Expr)
  | select (scope : Env) (tagged : Option (Value × Expr)) (cases : List SwitchCase)
  | anyMatches (scope : Env) (tagged : Option (Value × Expr)) (location : Location) (exprs : List Expr)
  | caseMatches (scope : Env) (tagged : Option (Value × Expr)) (location : Location) (expr : Expr)
  | returning (env : Env) (exprs : List Expr) (location : Location)
  | declare (env target : Env) (decl : ValueDecl)

/-- What a function of the evaluator gives. -/
abbrev Task.Result : Task → Type
  | evaluate _ _ => Value
  | condition _ _ _ | proceeds _ _ _ | anyMatches _ _ _ _ | caseMatches _ _ _ _ => Bool
  | values _ _ | eachValue _ _ => List (Value × Option Expr)
  | call _ _ _ _ | apply _ _ _ | enter _ _ _ => List Value
  | statements _ _ | block _ _ | statement _ _ | conditional _ _ | rounds _ _ _ _ _ | switch _ _ _
  | returning _ _ _ => Flow
  | header _ _ | declare _ _ _ => Unit
  | tagValue _ _ => Option (Value × Expr)
  | select _ _ _ => Option SwitchCase

/-- Runs a function of the evaluator. -/
def run (limit fuel : Nat) : (task : Task) → Eval task.Result
  | .evaluate env expr => Eval.evaluate limit fuel env expr
  | .condition env expr location => Eval.condition limit fuel env expr location
  | .values env exprs => Eval.values limit fuel env exprs
  | .eachValue env exprs => Eval.eachValue limit fuel env exprs
  | .call env callee args location => Eval.call limit fuel env callee args location
  | .apply function args location => Eval.apply limit fuel function args location
  | .enter closure args location => Eval.enter limit fuel closure args location
  | .statements env body => Eval.statements limit fuel env body
  | .block env body => Eval.block limit fuel env body
  | .header env init => Eval.header limit fuel env init
  | .statement env stmt => Eval.statement limit fuel env stmt
  | .conditional env found => Eval.conditional limit fuel env found
  | .rounds scope guard post body location => Eval.rounds limit fuel scope guard post body location
  | .proceeds scope guard location => Eval.proceeds limit fuel scope guard location
  | .switch scope tag cases => Eval.switch limit fuel scope tag cases
  | .tagValue scope tag => Eval.tagValue limit fuel scope tag
  | .select scope tagged cases => Eval.select limit fuel scope tagged cases
  | .anyMatches scope tagged location exprs => Eval.anyMatches limit fuel scope tagged location exprs
  | .caseMatches scope tagged location expr => Eval.caseMatches limit fuel scope tagged location expr
  | .returning env exprs location => Eval.returning limit fuel env exprs location
  | .declare env target decl => Eval.declare limit fuel env target decl

/-! ## Plans -/

/-- The steps of a function of the evaluator: some of its own, and runs of others. The call of a function value
stops if too many calls are active, prepares the environment of its body, and runs the body in a frame. -/
inductive Plan (α : Type) : Type 1 where
  | done (value : α)
  | step {β : Type} (action : Eval β) (next : β → Plan α)
  | start (task : Task) (next : task.Result → Plan α)
  | call (closure : Closure) (location : Location) (opening : Eval Env) (next : Env → Flow → Plan α)

namespace Plan

def bind {α β : Type} (next : α → Plan β) : Plan α → Plan β
  | done value => next value
  | step action behind => step action fun value => (behind value).bind next
  | start task behind => start task fun value => (behind value).bind next
  | call closure location opening behind => call closure location opening fun env flow => (behind env flow).bind next

instance : Monad Plan where
  pure := done
  bind plan next := plan.bind next

/-- A step of a plan. -/
def act {α : Type} (action : Eval α) : Plan α := step action done

/-- A run of a function. -/
def sub (task : Task) : Plan task.Result := start task done

end Plan

/-- A call of a function value: it stops if too many calls are active; if not, the environment of the body is
prepared, and the body runs in a frame. -/
def calling (limit : Nat) (closure : Closure) (location : Location) (opening : Eval Env) (body : Env → Eval Flow) :
    Eval (Env × Flow) := do
  let active ← Eval.depth
  if limit ≤ active then Eval.fail (.stackOverflow limit location)
  else do
    let env ← opening
    let flow ← Eval.inFrame closure.frame (body env)
    pure (env, flow)

namespace Plan

/-- Goes through a plan; `below` runs the functions of the evaluator. -/
def perform {α : Type} (limit : Nat) (below : (task : Task) → Eval task.Result) : Plan α → Eval α
  | done value => pure value
  | step action next => do (next (← action)).perform limit below
  | start task next => do (next (← below task)).perform limit below
  | call closure location opening next => do
      let (env, flow) ← calling limit closure location opening fun env => below (.statements env closure.literal.body)
      (next env flow).perform limit below

section

variable {limit : Nat} {below : (task : Task) → Eval task.Result} {α β : Type}

@[simp] theorem perform_pure (value : α) : (pure value : Plan α).perform limit below = pure value := rfl

@[simp] theorem perform_bind (plan : Plan α) (next : α → Plan β) :
    (plan >>= next).perform limit below = plan.perform limit below >>= fun value => (next value).perform limit below := by
  -- Each kind of step is a computation with a plan behind it, of which the induction knows.
  have later {γ : Type} (front : Eval γ) (behind : γ → Plan α)
      (ih : ∀ value, (behind value >>= next).perform limit below
        = (behind value).perform limit below >>= fun value => (next value).perform limit below) :
      (front >>= fun value => (behind value >>= next).perform limit below)
        = (front >>= fun value => (behind value).perform limit below) >>= fun value => (next value).perform limit below :=
    (congrArg (front >>= ·) (funext ih)).trans (bind_assoc front _ _).symm
  induction plan with
  | done value => exact (pure_bind value fun value => (next value).perform limit below).symm
  | step action behind ih => exact later action behind ih
  | start task behind ih => exact later (below task) behind ih
  | call closure location opening behind ih => exact later _ (fun both : Env × Flow => behind both.1 both.2) fun both => ih both.1 both.2

@[simp] theorem perform_ite {condition : Prop} [Decidable condition] (yes no : Plan α) :
    (if condition then yes else no).perform limit below
      = if condition then yes.perform limit below else no.perform limit below :=
  apply_ite (perform limit below) condition yes no

end

end Plan

/-! ## The plans of the evaluator -/

namespace Plan

/-- How an expression is evaluated. -/
def evaluate (env : Env) : Expr → Plan Value
  | .integer value => pure (.int value)
  | .float value => pure (.float value)
  | .string value => pure (.string value)
  | .identifier name location => act do
      match ← Eval.lookup? env name location with
      | some (.package _) => Eval.fail (.mismatch (.bareImport name) location)
      | some value => pure value
      | none => Eval.fail (.undefined name location)
  | .qualified package name location => act (Eval.qualified env package name location)
  | .binary left .and right location => do
      if ← sub (.condition env left location) then do
        let outcome ← sub (.condition env right location)
        pure (.bool outcome)
      else pure (.bool false)
  | .binary left .or right location => do
      if ← sub (.condition env left location) then pure (.bool true)
      else do
        let outcome ← sub (.condition env right location)
        pure (.bool outcome)
  | .binary left op right location => do
      let leftValue ← sub (.evaluate env left)
      let rightValue ← sub (.evaluate env right)
      let (leftValue, rightValue) := Value.unify leftValue left rightValue right
      act (Eval.ofExcept (Value.binary op leftValue rightValue location))
  | .unary op operand location => do
      let value ← sub (.evaluate env operand)
      act (Eval.ofExcept (Value.unary op value location))
  | .call callee args location => do
      match ← sub (.call env callee args location) with
      | [value] => pure value
      | [] => act (Eval.fail (.noValue location))
      | values => act (Eval.fail (.multiValue values.length location))
  | .function literal => act do
      let name ← Eval.literalName
      Eval.makeClosure name literal env

/-- How values are evaluated. -/
def values (env : Env) : List Expr → Plan (List (Value × Option Expr))
  | [.call callee args location] => do
      match ← sub (.call env callee args location) with
      | [value] => pure [(value, some (.call callee args location))]
      | results => pure (results.map fun value => (value, none))
  | exprs => sub (.eachValue env exprs)

/-- How a statement runs. -/
def statement (env : Env) : Stmt → Plan Flow
  | .declare decl => do
      sub (.declare env env decl)
      pure .normal
  | .define names exprs location => do
      let received ← sub (.values env exprs)
      if received.length = names.length then do
        act (Eval.defineValues env location names received)
        pure .normal
      else act (Eval.fail (.assignmentCount names.length received.length location))
  | .assign targets exprs location => do
      let received ← sub (.values env exprs)
      if received.length = targets.length then do
        act (Eval.storeValues env location targets received)
        pure .normal
      else act (Eval.fail (.assignmentCount targets.length received.length location))
  | .compound target op expr location => do
      let current ← act (Eval.lookup env target location)
      let operand ← sub (.evaluate env expr)
      let operand := match current with
        | .float _ => operand.coerce (some expr) .float
        | _ => operand
      let updated ← act (Eval.ofExcept (Value.binary op current operand location))
      act (Eval.assign env target updated location)
      pure .normal
  | .step target up location => do
      let current ← act (Eval.lookup env target location)
      let updated ← act (Eval.stepped target up location current)
      act (Eval.assign env target updated location)
      pure .normal
  | .ifElse found => sub (.conditional env found)
  | .loop init guard post body location => do
      let scope ← act (Eval.openScope env)
      sub (.header scope init)
      sub (.rounds scope guard post body location)
  | .switch init tag cases _ => do
      let scope ← act (Eval.openScope env)
      sub (.header scope init)
      sub (.switch scope tag cases)
  | .return exprs location => sub (.returning env exprs location)
  | .break _ => pure .break
  | .continue _ => pure .continue
  | .block body => sub (.block env body)
  | .expression (.call callee args location) => do
      let _ ← sub (.call env callee args location)
      pure .normal
  | .expression expr => do
      let _ ← sub (.evaluate env expr)
      pure .normal

/-- How a declaration runs. -/
def declare (env target : Env) (decl : ValueDecl) : Plan Unit :=
  match decl.values with
  | [] =>
      match decl.type? with
      | some type =>
          act (Eval.bindValues target (!decl.isConst) (some type) decl.names (decl.names.map fun _ => .zero type))
      | none => act (Eval.fail (.mismatch .untyped decl.location))
  | exprs => do
      let received ← sub (.values env exprs)
      if received.length = decl.names.length then do
        let initial ← act (Eval.declaredValues decl.type? decl.location received)
        act (Eval.bindValues target (!decl.isConst) decl.type? decl.names initial)
      else act (Eval.fail (.assignmentCount decl.names.length received.length decl.location))

/-- How a function value is called. -/
def enter (closure : Closure) (args : List Value) (location : Location) : Plan (List Value) :=
  let signature := closure.literal.signature
  if args.length ≠ signature.params.length then
    act (Eval.fail (.argumentCount closure.name signature.params.length args.length location))
  else
    let opening := do
      let env ← Eval.openScope closure.env
      Eval.bindParameters env closure.name location signature.params args
      Eval.bindResults env signature.resultNames signature.results
      pure env
    call closure location opening fun env flow => do
      let results ← act (Eval.resultsOf env signature flow)
      if results.length = signature.results.length then do
        act (Eval.meet (.returned closure results))
        pure results
      else act (Eval.fail (.returnCount closure.name signature.results.length results.length location))

/-- How a return statement runs. -/
def returning (env : Env) (exprs : List Expr) (location : Location) : Plan Flow :=
  match exprs with
  | [] => pure (.return [])
  | exprs => do
      let frame := (← act Eval.frame?).getD ⟨"", []⟩
      let received ← sub (.values env exprs)
      if received.length = frame.results.length then do
        let results ← act (Eval.returnedValues location frame.results received)
        pure (.return results)
      else act (Eval.fail (.returnCount frame.function frame.results.length received.length location))

end Plan

/-- What each function of the evaluator does. -/
def plan : (task : Task) → Plan task.Result
  | .evaluate env expr => .evaluate env expr
  | .condition env expr location => do
      let value ← .sub (.evaluate env expr)
      .act (Eval.ofExcept (value.asBool (expr.location?.getD location)))
  | .values env exprs => .values env exprs
  | .eachValue _ [] => pure []
  | .eachValue env (expr :: rest) => do
      let value ← .sub (.evaluate env expr)
      let others ← .sub (.eachValue env rest)
      pure ((value, some expr) :: others)
  | .call env callee args location => do
      let function ← .sub (.evaluate env callee)
      let received ← .sub (.values env args)
      let given := match function with
        | .function closure => Eval.coerceArguments closure.literal.signature.params received
        | _ => received.map (·.1)
      let results ← .sub (.apply function given location)
      .act (Eval.meet (.called (.call callee args location) function results))
      pure results
  | .apply (.function closure) args location => .sub (.enter closure args location)
  | .apply (.builtin found) args location => .act (Eval.callBuiltin found args location)
  | .apply .nilFunction _ location => .act (Eval.fail (.nilFunction location))
  | .apply other _ location => .act (Eval.fail (.notCallable other.kind location))
  | .enter closure args location => .enter closure args location
  | .statements _ [] => pure .normal
  | .statements env (first :: rest) => do
      match ← .sub (.statement env first) with
      | .normal => .sub (.statements env rest)
      | flow => pure flow
  | .block env body => do
      let inner ← .act (Eval.openScope env)
      .sub (.statements inner body)
  | .header _ none => pure ()
  | .header env (some init) => do
      let _ ← .sub (.statement env init)
      pure ()
  | .statement env stmt => .statement env stmt
  | .conditional env found => do
      let scope ← .act (Eval.openScope env)
      .sub (.header scope found.init)
      if ← .sub (.condition scope found.condition found.location) then .sub (.block scope found.body)
      else
        match found.orElse with
        | .absent => pure .normal
        | .block body => .sub (.block scope body)
        | .chain next => .sub (.conditional scope next)
  | .rounds scope guard post body location => do
      if ← .sub (.proceeds scope guard location) then do
        match ← .sub (.block scope body) with
        | .break => pure .normal
        | .return results => pure (.return results)
        | _ => do
            .sub (.header scope post)
            .sub (.rounds scope guard post body location)
      else pure .normal
  | .proceeds _ none _ => pure true
  | .proceeds scope (some expr) location => .sub (.condition scope expr location)
  | .switch scope tag cases => do
      let tagged ← .sub (.tagValue scope tag)
      let selected ← .sub (.select scope tagged cases)
      match selected.or (Eval.defaultCase cases) with
      | none => pure .normal
      | some found => do
          match ← .sub (.block scope found.body) with
          | .break => pure .normal
          | flow => pure flow
  | .tagValue _ none => pure none
  | .tagValue scope (some expr) => do
      let value ← .sub (.evaluate scope expr)
      pure (some (value, expr))
  | .select _ _ [] => pure none
  | .select scope tagged (first :: rest) =>
      match first.label with
      | .otherwise => .sub (.select scope tagged rest)
      | .values exprs => do
          if ← .sub (.anyMatches scope tagged first.location exprs) then pure (some first)
          else .sub (.select scope tagged rest)
  | .anyMatches _ _ _ [] => pure false
  | .anyMatches scope tagged location (expr :: rest) => do
      if ← .sub (.caseMatches scope tagged location expr) then pure true
      else .sub (.anyMatches scope tagged location rest)
  | .caseMatches scope none location expr => .sub (.condition scope expr location)
  | .caseMatches scope (some (tag, tagExpr)) location expr => do
      let candidate ← .sub (.evaluate scope expr)
      let (tag, candidate) := Value.unify tag tagExpr candidate expr
      .act (Eval.ofExcept (tag.equals candidate (expr.location?.getD location)))
  | .returning env exprs location => .returning env exprs location
  | .declare env target decl => .declare env target decl

/-! ## The evaluator follows its plans -/

section

variable {limit fuel : Nat}

attribute [local simp] run plan Plan.sub Plan.act Plan.perform

theorem run_zero (task : Task) : run limit 0 task = Eval.exhausted := by
  cases task <;> rfl

theorem evaluate_plan (env : Env) (expr : Expr) :
    Eval.evaluate limit (fuel + 1) env expr = (Plan.evaluate env expr).perform limit (run limit fuel) := by
  cases expr with
  | identifier name location => exact (bind_pure _).symm
  | binary left op right location =>
      cases op <;> simp [Eval.evaluate, Plan.evaluate]
  | call callee args location =>
      refine congrArg (Eval.call limit fuel env callee args location >>= ·) (funext fun results => ?_)
      rcases results with _ | ⟨value, _ | ⟨second, rest⟩⟩ <;> rfl
  | _ => simp [Eval.evaluate, Plan.evaluate]

theorem values_plan (env : Env) (exprs : List Expr) :
    Eval.values limit (fuel + 1) env exprs = (Plan.values env exprs).perform limit (run limit fuel) := by
  by_cases lone : ∃ callee args location, exprs = [.call callee args location]
  · obtain ⟨callee, args, location, rfl⟩ := lone
    refine congrArg (Eval.call limit fuel env callee args location >>= ·) (funext fun results => ?_)
    rcases results with _ | ⟨value, _ | ⟨second, rest⟩⟩ <;> rfl
  · have plain : ∀ callee args location, exprs ≠ [.call callee args location] :=
      fun callee args location same => lone ⟨callee, args, location, same⟩
    rw [Eval.values, Plan.values]
    · exact (bind_pure (Eval.eachValue limit fuel env exprs)).symm
    · exact plain
    · exact plain

theorem statement_plan (env : Env) (stmt : Stmt) :
    Eval.statement limit (fuel + 1) env stmt = (Plan.statement env stmt).perform limit (run limit fuel) := by
  cases stmt with
  | compound target op expr location =>
      refine congrArg (Eval.lookup env target location >>= ·) (funext fun current => ?_)
      cases current <;> rfl
  | expression expr => cases expr <;> simp [Eval.statement, Plan.statement]
  | _ => simp [Eval.statement, Plan.statement]

theorem enter_plan (closure : Closure) (args : List Value) (location : Location) :
    Eval.enter limit (fuel + 1) closure args location
      = (Plan.enter closure args location).perform limit (run limit fuel) := by
  by_cases count : args.length = closure.literal.signature.params.length
  · simp only [Eval.enter, Plan.enter, Plan.act, Plan.perform, Plan.perform_bind, Plan.perform_ite, Plan.perform_pure, run,
      calling, count, Closure.frame, ne_eq, not_true, if_false, bind_assoc, bind_pure]
    refine bind_congr fun active => ?_
    split
    · rfl
    · simp only [bind_assoc, pure_bind]
  · simp only [Eval.enter, Plan.enter, Plan.act, Plan.perform, count, ne_eq, not_false_eq_true, if_true, bind_pure]
    rfl

theorem declare_plan (env target : Env) (decl : ValueDecl) :
    Eval.declare limit (fuel + 1) env target decl = (Plan.declare env target decl).perform limit (run limit fuel) := by
  obtain ⟨isConst, names, type?, values, location⟩ := decl
  cases values with
  | nil => cases type? <;> simp [Eval.declare, Plan.declare]
  | cons first rest => simp [Eval.declare, Plan.declare]

theorem switch_plan (scope : Env) (tag : Option Expr) (cases : List SwitchCase) :
    Eval.switch limit (fuel + 1) scope tag cases = (plan (.switch scope tag cases)).perform limit (run limit fuel) := by
  simp only [Eval.switch, plan, Plan.sub, Plan.perform, Plan.perform_bind, run, bind_pure]
  refine bind_congr fun tagged => bind_congr fun selected => ?_
  cases selected.or (Eval.defaultCase cases) with
  | none => rfl
  | some found =>
      refine congrArg (Eval.block limit fuel scope found.body >>= ·) (funext fun flow => ?_)
      cases flow <;> rfl

theorem run_succ (task : Task) : run limit (fuel + 1) task = (plan task).perform limit (run limit fuel) := by
  -- With one more unit of fuel a task is its plan, whose subtasks run with the unit less.
  cases task with
  | evaluate env expr => exact evaluate_plan env expr
  | condition env expr location => simp [Eval.condition]
  | values env exprs => exact values_plan env exprs
  | eachValue env exprs => cases exprs <;> rfl
  | call env callee args location =>
      refine congrArg (Eval.evaluate limit fuel env callee >>= ·) (funext fun function => ?_)
      cases function <;> rfl
  | apply function args location => cases function <;> simp [Eval.apply]
  | enter closure args location => exact enter_plan closure args location
  | statements env body =>
      cases body with
      | nil => rfl
      | cons first rest =>
          refine congrArg (Eval.statement limit fuel env first >>= ·) (funext fun flow => ?_)
          cases flow with
          | normal => exact (bind_pure _).symm
          | _ => rfl
  | block env body => simp [Eval.block]
  | header env init => cases init <;> rfl
  | statement env stmt => exact statement_plan env stmt
  | conditional env found =>
      obtain ⟨init, condition, body, orElse, location⟩ := found
      cases orElse <;> simp [Eval.conditional]
  | rounds scope guard post body location =>
      refine congrArg (Eval.proceeds limit fuel scope guard location >>= ·) (funext fun more => ?_)
      cases more with
      | false => rfl
      | true =>
          refine congrArg (Eval.block limit fuel scope body >>= ·) (funext fun flow => ?_)
          have again : Eval.rounds limit fuel scope guard post body location
              = (Plan.sub (.rounds scope guard post body location)).perform limit (run limit fuel) := (bind_pure _).symm
          cases flow with
          | normal | «continue» =>
              exact congrArg (Eval.header limit fuel scope post >>= ·) (funext fun _ => again)
          | «break» => rfl
          | «return» results => rfl
  | proceeds scope guard location => cases guard <;> simp [Eval.proceeds]
  | switch scope tag cases => exact switch_plan scope tag cases
  | tagValue scope tag => cases tag <;> rfl
  | select scope tagged cases =>
      cases cases with
      | nil => rfl
      | cons first rest =>
          obtain ⟨label, body, location⟩ := first
          cases label <;> simp [Eval.select]
  | anyMatches scope tagged location exprs =>
      cases exprs <;> simp [Eval.anyMatches]
  | caseMatches scope tagged location expr =>
      cases tagged <;> simp [Eval.caseMatches]
  | returning env exprs location =>
      cases exprs <;> simp [Eval.returning, Plan.returning]
  | declare env target decl => exact declare_plan env target decl

end

/-! ## Moments of a run -/

section

variable {limit : Nat} {below : (task : Task) → Eval task.Result} {α : Type}

/-- What a plan begins on its way, and on which machine; `entered` is the function value if it is the body
of one. -/
inductive Plan.Reaches (limit : Nat) (below : (task : Task) → Eval task.Result) :
    Plan α → Machine → Option Closure → Task → Machine → Prop
  | here {task : Task} {next : task.Result → Plan α} {machine : Machine} :
      Reaches limit below (.start task next) machine none task machine
  | body {closure : Closure} {location : Location} {opening : Eval Env} {next : Env → Flow → Plan α} {env : Env}
      {before machine : Machine} (room : before.calls.depth < limit) (opened : opening before = .ok env machine) :
      Reaches limit below (.call closure location opening next) before (some closure)
        (.statements env closure.literal.body) { machine with calls := machine.calls.push closure.frame }
  | afterStep {β : Type} {action : Eval β} {next : β → Plan α} {value : β} {before middle machine : Machine}
      {entered : Option Closure} {task : Task} (ran : action before = .ok value middle)
      (later : Reaches limit below (next value) middle entered task machine) :
      Reaches limit below (.step action next) before entered task machine
  | afterStart {first : Task} {next : first.Result → Plan α} {value : first.Result}
      {before middle machine : Machine} {entered : Option Closure} {task : Task}
      (ran : below first before = .ok value middle)
      (later : Reaches limit below (next value) middle entered task machine) :
      Reaches limit below (.start first next) before entered task machine
  | afterCall {closure : Closure} {location : Location} {opening : Eval Env} {next : Env → Flow → Plan α}
      {env : Env} {flow : Flow} {before middle machine : Machine} {entered : Option Closure} {task : Task}
      (ran : calling limit closure location opening (fun env => below (.statements env closure.literal.body)) before
        = .ok (env, flow) middle)
      (later : Reaches limit below (next env flow) middle entered task machine) :
      Reaches limit below (.call closure location opening next) before entered task machine

theorem calling_run {closure : Closure} {location : Location} {opening : Eval Env} {body : Env → Eval Flow}
    {before : Machine} (room : before.calls.depth < limit) :
    calling limit closure location opening body before = (do
      let env ← opening
      let flow ← Eval.inFrame closure.frame (body env)
      pure (env, flow)) before := by
  rw [calling, bind_run, Eval.depth]
  dsimp only
  rw [if_neg (Nat.not_le.mpr room)]

theorem calling_full {closure : Closure} {location : Location} {opening : Eval Env} {body : Env → Eval Flow}
    {before : Machine} (full : limit ≤ before.calls.depth) :
    calling limit closure location opening body before = .error (.fault (.stackOverflow limit location)) before := by
  rw [calling, bind_run, Eval.depth]
  dsimp only
  rw [if_pos full]
  rfl

/-- What halts on the way halts the plan. -/
theorem Plan.Reaches.halts {plan : Plan α} {before machine after : Machine} {entered : Option Closure} {task : Task}
    {halt : Halt} (reaches : plan.Reaches limit below before entered task machine)
    (halted : below task machine = .error halt after) : ∃ last, plan.perform limit below before = .error halt last := by
  induction reaches with
  | here =>
      rw [perform, bind_run, halted]
      exact ⟨after, rfl⟩
  | body room opened =>
      rw [perform, bind_run, calling_run room, bind_run, opened]
      dsimp only
      rw [bind_run, Eval.inFrame, halted]
      exact ⟨_, rfl⟩
  | afterStep ran _ ih | afterStart ran _ ih | afterCall ran _ ih =>
      rw [perform, bind_run, ran]
      exact ih halted

end

end MiniGo.Running
