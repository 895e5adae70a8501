import MiniGo.Proofs.Places.Erasing

/-!
# Code that runs without places

`Mirrors` compares a computation on a machine with one on the same machine without places: both end in the same
way, with the same result and the same machine up to places. Code without its places mirrors the code, for every
function of the evaluator (`mirroring`).
-/

namespace MiniGo.Placeless

open Syntax

variable {α β γ δ : Type} {limit fuel : Nat} {env : Env} {location : Location}

/-- A machine in the state of another, without places; the events that led to it do not count. -/
structure Mirrored (machine other : Machine) : Prop where
  store : other.store = store machine.store
  calls : other.calls = machine.calls
  output : other.output = machine.output
  closures : other.closures = machine.closures

/-- Two computations ended in the same way, up to places. -/
def Ended (erase : α → β) : EStateM.Result Halt Machine α → EStateM.Result Halt Machine β → Prop
  | .ok found after, .ok other later => other = erase found ∧ Mirrored after later
  | .error found after, .error other later => other = halt found ∧ Mirrored after later
  | _, _ => False

/-- On a machine without places, a computation does what another does on the machine. -/
def Mirrors (erase : α → β) (action : Eval α) (mirror : Eval β) : Prop :=
  ∀ machine other, Mirrored machine other → Ended erase (action machine) (mirror other)

theorem Ended.of_ok {erase : α → β} {found : α} {after : Machine} {mirrored : EStateM.Result Halt Machine β}
    (ended : Ended erase (.ok found after) mirrored) :
    ∃ later, mirrored = .ok (erase found) later ∧ Mirrored after later := by
  cases mirrored with
  | ok other later =>
      obtain ⟨rfl, same⟩ := ended
      exact ⟨later, rfl, same⟩
  | error => exact ended.elim

theorem Ended.of_error {erase : α → β} {found : Halt} {after : Machine} {mirrored : EStateM.Result Halt Machine β}
    (ended : Ended erase (.error found after) mirrored) :
    ∃ later, mirrored = .error (halt found) later ∧ Mirrored after later := by
  cases mirrored with
  | ok => exact ended.elim
  | error other later =>
      obtain ⟨rfl, same⟩ := ended
      exact ⟨later, rfl, same⟩

namespace Mirrors

variable {erase : α → β} {last : γ → δ}

theorem pure {found : α} : Mirrors erase (Pure.pure found) (Pure.pure (erase found)) :=
  fun _ _ same => ⟨rfl, same⟩

theorem fail {error : RuntimeError} : Mirrors erase (Eval.fail error) (Eval.fail (runtime error)) :=
  fun _ _ same => ⟨rfl, same⟩

theorem exhausted : Mirrors erase Eval.exhausted Eval.exhausted := fun _ _ same => ⟨rfl, same⟩

theorem bind {action : Eval α} {mirror : Eval β} {next : α → Eval γ} {behind : β → Eval δ}
    (first : Mirrors erase action mirror) (rest : ∀ found, Mirrors last (next found) (behind (erase found))) :
    Mirrors last (action >>= next) (mirror >>= behind) := by
  intro machine other same
  have ended := first machine other same
  change Ended last (EStateM.bind action next machine) (EStateM.bind mirror behind other)
  unfold EStateM.bind
  cases ran : action machine with
  | ok found after =>
      rw [ran] at ended
      obtain ⟨later, mirrored, same⟩ := ended.of_ok
      rw [mirrored]
      exact rest found after later same
  | error stop after =>
      rw [ran] at ended
      obtain ⟨later, mirrored, same⟩ := ended.of_error
      rw [mirrored]
      exact ⟨rfl, same⟩

theorem choice {condition : Prop} [Decidable condition] {yes no : Eval α} {yes' no' : Eval β}
    (one : Mirrors erase yes yes') (two : Mirrors erase no no') :
    Mirrors erase (if condition then yes else no) (if condition then yes' else no') := by
  split
  · exact one
  · exact two

theorem ofExcept {result : Except RuntimeError α} :
    Mirrors erase (Eval.ofExcept result) (Eval.ofExcept (outcome erase result)) := by
  intro machine other same
  cases result <;> exact ⟨rfl, same⟩

theorem meet {event other : Event} : Mirrors id (Eval.meet event) (Eval.meet other) :=
  fun _ _ same => ⟨rfl, same.store, same.calls, same.output, same.closures⟩

theorem openScope : Mirrors id (Eval.openScope env) (Eval.openScope env) := by
  intro machine other same
  unfold Eval.openScope
  rw [same.store, child_store]
  exact ⟨rfl, rfl, same.calls, same.output, same.closures⟩

theorem bindTyped {name : String} {type? : Option Ty} {found : Value} {mutable : Bool} :
    Mirrors id (Eval.bindTyped env name type? found mutable) (Eval.bindTyped env name type? (value found) mutable) := by
  intro machine other same
  unfold Eval.bindTyped
  refine ⟨rfl, ?_, same.calls, same.output, same.closures⟩
  rw [same.store]
  exact bind_store machine.store env name ⟨found, mutable⟩

theorem bindName {name : String} {found : Value} {mutable : Bool} :
    Mirrors id (Eval.bind env name found mutable) (Eval.bind env name (value found) mutable) := bindTyped

theorem lookup? {name : String} :
    Mirrors (Option.map value) (Eval.lookup? env name location) (Eval.lookup? env name Location.nowhere) := by
  intro machine other same
  unfold Eval.lookup?
  rw [same.store, get?_store]
  exact ⟨rfl, same.store, same.calls, same.output, same.closures⟩

theorem lookup {name : String} :
    Mirrors value (Eval.lookup env name location) (Eval.lookup env name Location.nowhere) := by
  intro machine other same
  unfold Eval.lookup
  rw [same.store, get?_store]
  cases machine.store.get? env name with
  | none => exact ⟨rfl, same.store, same.calls, same.output, same.closures⟩
  | some found => exact ⟨rfl, same.store, same.calls, same.output, same.closures⟩

theorem lookupLocal? {name : String} :
    Mirrors (Option.map value) (Eval.lookupLocal? env name) (Eval.lookupLocal? env name) := by
  intro machine other same
  unfold Eval.lookupLocal?
  rw [same.store, getLocal?_store]
  exact ⟨rfl, same⟩

theorem hasLocal {name : String} : Mirrors id (Eval.hasLocal env name) (Eval.hasLocal env name) := by
  intro machine other same
  unfold Eval.hasLocal
  rw [same.store, hasLocal_store]
  exact ⟨rfl, same⟩

theorem assign {name : String} {found : Value} :
    Mirrors id (Eval.assign env name found location) (Eval.assign env name (value found) Location.nowhere) := by
  intro machine other same
  unfold Eval.assign
  rw [same.store, target_store machine.store env name location]
  cases machine.store.target env name location with
  | ok id => exact ⟨rfl, write_store machine.store name id found, same.calls, same.output, same.closures⟩
  | error error => exact ⟨rfl, same.store, same.calls, same.output, same.closures⟩

theorem depth : Mirrors id Eval.depth Eval.depth := by
  intro machine other same
  unfold Eval.depth
  rw [same.calls]
  exact ⟨rfl, same⟩

theorem frame? : Mirrors id Eval.frame? Eval.frame? := by
  intro machine other same
  unfold Eval.frame?
  rw [same.calls]
  exact ⟨rfl, same⟩

theorem makeClosure {name : String} {literal : FunctionLiteral} :
    Mirrors value (Eval.makeClosure name literal env) (Eval.makeClosure name (Unplaced.function .float literal) env) := by
  intro machine other same
  unfold Eval.makeClosure
  rw [same.closures]
  exact ⟨rfl, same.store, same.calls, same.output, rfl⟩

theorem callBuiltin {function : Builtin} {args : List Value} :
    Mirrors (List.map value) (Eval.callBuiltin function args location)
      (Eval.callBuiltin function (args.map value) Location.nowhere) := by
  intro machine other same
  unfold Eval.callBuiltin
  rw [call_values function args location]
  cases function.call args location with
  | ok found => exact ⟨rfl, same.store, same.calls, by rw [same.output], same.closures⟩
  | error error => exact ⟨rfl, same⟩

theorem inFrame {frame : Frame} {body : Eval α} {mirror : Eval β} (mirrors : Mirrors erase body mirror) :
    Mirrors erase (Eval.inFrame frame body) (Eval.inFrame frame mirror) := by
  intro machine other same
  have ended := mirrors { machine with calls := machine.calls.push frame }
    { other with calls := other.calls.push frame } ⟨same.store, by rw [same.calls], same.output, same.closures⟩
  unfold Eval.inFrame
  -- The frame is taken off again, however the body ends.
  cases ran : body { machine with calls := machine.calls.push frame } with
  | ok found after =>
      rw [ran] at ended
      obtain ⟨later, mirrored, same⟩ := ended.of_ok
      rw [mirrored]
      exact ⟨rfl, same.store, by rw [same.calls], same.output, same.closures⟩
  | error stop after =>
      rw [ran] at ended
      obtain ⟨later, mirrored, same⟩ := ended.of_error
      rw [mirrored]
      exact ⟨rfl, same.store, by rw [same.calls], same.output, same.closures⟩

/-! ## Names and values -/

theorem qualified {package name : String} : Mirrors value (Eval.qualified env package name location)
    (Eval.qualified env package name Location.nowhere) := by
  unfold Eval.qualified
  refine meet.bind fun _ => lookup?.bind fun found => ?_
  cases found with
  | none => exact fail
  | some found =>
      cases found with
      | package ref =>
          refine choice (lookupLocal?.bind fun found => ?_) fail
          cases found with
          | none => exact fail
          | some found => exact pure
      | _ => exact fail

theorem literalName : Mirrors id Eval.literalName Eval.literalName := by
  unfold Eval.literalName
  refine frame?.bind fun found => ?_
  cases found <;> exact pure

theorem storeValue {name : String} {found : Value} {source : Option Expr} :
    Mirrors id (Eval.storeValue env name found source location)
      (Eval.storeValue env name (value found) (source.map (Unplaced.expr .float)) Location.nowhere) := by
  have stores : ∀ current stored : Value, Mirrors id
      (if current.kind = stored.kind then Eval.assign env name stored location
        else Eval.fail (.mismatch (.stored stored.kind current.kind) location))
      (if (value current).kind = (value stored).kind then Eval.assign env name (value stored) Location.nowhere
        else Eval.fail (.mismatch (.stored (value stored).kind (value current).kind) Location.nowhere)) := by
    intro current stored
    rw [kind_value, kind_value]
    exact choice assign fail
  unfold Eval.storeValue
  refine lookup.bind fun current => ?_
  cases current with
  | float x =>
      have coerced := stores (.float x) (found.coerce source .float)
      rw [← coerce_value] at coerced
      exact coerced
  | int _ | string _ | bool _ | builtin _ | nilFunction | package _ | tuple _ | unit => exact stores _ found
  | function closure => exact stores (.function closure) found

theorem storeValues {names : List String} {received : List (Value × Option Expr)} :
    Mirrors id (Eval.storeValues env location names received)
      (Eval.storeValues env Location.nowhere names (received.map sourced)) := by
  induction names generalizing received with
  | nil => exact pure
  | cons name names ih =>
      cases received with
      | nil => exact pure
      | cons pair rest => exact choice (pure.bind fun _ => ih) (storeValue.bind fun _ => ih)

theorem defineValues {names : List String} {received : List (Value × Option Expr)} :
    Mirrors id (Eval.defineValues env location names received)
      (Eval.defineValues env Location.nowhere names (received.map sourced)) := by
  induction names generalizing received with
  | nil => exact pure
  | cons name names ih =>
      cases received with
      | nil => exact pure
      | cons pair rest =>
          refine choice (pure.bind fun _ => ih) (hasLocal.bind fun known => ?_)
          exact choice (storeValue.bind fun _ => ih) (bindName.bind fun _ => ih)

theorem bindValues {mutable : Bool} {type? : Option Ty} {names : List String} {found : List Value} :
    Mirrors id (Eval.bindValues env mutable type? names found)
      (Eval.bindValues env mutable type? names (found.map value)) := by
  induction names generalizing found with
  | nil => exact pure
  | cons name names ih =>
      cases found with
      | nil => exact pure
      | cons first rest => exact bindTyped.bind fun _ => ih

theorem declaredValue {type? : Option Ty} {found : Value} {source : Option Expr} :
    Mirrors value (Eval.declaredValue type? location found source)
      (Eval.declaredValue type? Location.nowhere (value found) (source.map (Unplaced.expr .float))) := by
  cases type? with
  | none => exact pure
  | some type =>
      unfold Eval.declaredValue
      simp only [coerce_value, conformsTo_value, kind_value]
      exact choice pure fail

theorem declaredValues {type? : Option Ty} {received : List (Value × Option Expr)} :
    Mirrors (List.map value) (Eval.declaredValues type? location received)
      (Eval.declaredValues type? Location.nowhere (received.map sourced)) := by
  induction received with
  | nil => exact pure
  | cons pair rest ih => exact declaredValue.bind fun _ => ih.bind fun _ => pure

theorem returnedValues {types : List Ty} {received : List (Value × Option Expr)} :
    Mirrors (List.map value) (Eval.returnedValues location types received)
      (Eval.returnedValues Location.nowhere types (received.map sourced)) := by
  induction types generalizing received with
  | nil => exact pure
  | cons type types ih =>
      cases received with
      | nil => exact pure
      | cons pair rest =>
          obtain ⟨found, source⟩ := pair
          unfold Eval.returnedValues
          rw [List.map_cons, sourced]
          dsimp only
          rw [coerce_value, conformsTo_value, kind_value]
          have nowhere : ((source.map (Unplaced.expr .float)).bind (·.location?)).getD Location.nowhere
              = Location.nowhere := by
            cases source with
            | none => rfl
            | some expr => exact location?_expr expr
          rw [nowhere]
          exact choice (ih.bind fun _ => pure) fail

theorem bindParameters {function : String} {params : List Parameter} {args : List Value} :
    Mirrors id (Eval.bindParameters env function location params args)
      (Eval.bindParameters env function Location.nowhere params (args.map value)) := by
  induction params generalizing args with
  | nil => exact pure
  | cons param params ih =>
      cases args with
      | nil => exact pure
      | cons arg rest =>
          unfold Eval.bindParameters
          rw [List.map_cons]
          simp only [conformsTo_value, kind_value]
          exact choice (bindTyped.bind fun _ => ih) ((@fail Unit Unit id _).bind fun _ => ih)

theorem bindResults {names : List String} {types : List Ty} :
    Mirrors id (Eval.bindResults env names types) (Eval.bindResults env names types) := by
  induction names generalizing types with
  | nil => exact pure
  | cons name names ih =>
      cases types with
      | nil => exact pure
      | cons type types =>
          have binds : Mirrors id (Eval.bindTyped env name (some type) (.zero type) true) _ := bindTyped
          rw [value_zero] at binds
          exact binds.bind fun _ => ih

theorem namedResults {names : List String} {types : List Ty} :
    Mirrors (List.map value) (Eval.namedResults env names types) (Eval.namedResults env names types) := by
  induction names generalizing types with
  | nil => exact pure
  | cons name names ih =>
      cases types with
      | nil => exact pure
      | cons type types =>
          refine lookupLocal?.bind fun found => ih.bind fun others => ?_
          cases found with
          | none =>
              have gives : Mirrors (List.map value) (Pure.pure (.zero type :: others) : Eval (List Value)) _ := pure
              rw [List.map_cons, value_zero] at gives
              exact gives
          | some found => exact pure

theorem resultsOf {signature : Signature} {found : Flow} :
    Mirrors (List.map value) (Eval.resultsOf env signature found) (Eval.resultsOf env signature (flow found)) := by
  cases found with
  | «return» results =>
      cases results with
      | nil => exact choice pure namedResults
      | cons first rest => exact pure
  | _ => exact pure

theorem stepped {name : String} {up : Bool} {found : Value} :
    Mirrors value (Eval.stepped name up location found) (Eval.stepped name up Location.nowhere (value found)) := by
  cases found with
  | int _ | float _ => exact pure
  | _ => exact fail

end Mirrors

theorem coerceArguments_sourced (params : List Parameter) (received : List (Value × Option Expr)) :
    Eval.coerceArguments params (received.map sourced) = (Eval.coerceArguments params received).map value := by
  fun_induction Eval.coerceArguments params received with
  | case1 param params found source rest ih =>
      rw [List.map_cons, sourced, Eval.coerceArguments, coerce_value, ih, List.map_cons]
  | case2 received =>
      unfold Eval.coerceArguments
      rw [List.map_map, List.map_map]
      rfl
  | case3 params some => cases params <;> rfl

theorem first_sourced (received : List (Value × Option Expr)) :
    (received.map (·.1)).map value = (received.map sourced).map (·.1) := by
  rw [List.map_map, List.map_map]
  rfl

theorem defaultCase_cases (found : List SwitchCase) :
    Eval.defaultCase (Unplaced.cases .float found) = (Eval.defaultCase found).map (Unplaced.switchCase .float) := by
  unfold Eval.defaultCase
  induction found with
  | nil => rfl
  | cons first rest ih =>
      obtain ⟨label, body, location⟩ := first
      cases label with
      | values exprs => exact ih
      | otherwise => rfl

/-! ## Code -/

/-- Every function of the evaluator does without places what it does with them, run with a bound on its length. -/
structure Mirroring (limit fuel : Nat) : Prop where
  evaluate : ∀ {env expr},
    Mirrors value (Eval.evaluate limit fuel env expr) (Eval.evaluate limit fuel env (Unplaced.expr .float expr))
  condition : ∀ {env expr location}, Mirrors id (Eval.condition limit fuel env expr location)
    (Eval.condition limit fuel env (Unplaced.expr .float expr) Location.nowhere)
  values : ∀ {env exprs}, Mirrors (List.map sourced) (Eval.values limit fuel env exprs)
    (Eval.values limit fuel env (Unplaced.exprs .float exprs))
  eachValue : ∀ {env exprs}, Mirrors (List.map sourced) (Eval.eachValue limit fuel env exprs)
    (Eval.eachValue limit fuel env (Unplaced.exprs .float exprs))
  call : ∀ {env callee args location}, Mirrors (List.map value) (Eval.call limit fuel env callee args location)
    (Eval.call limit fuel env (Unplaced.expr .float callee) (Unplaced.exprs .float args) Location.nowhere)
  apply : ∀ {function args location}, Mirrors (List.map value) (Eval.apply limit fuel function args location)
    (Eval.apply limit fuel (value function) (args.map value) Location.nowhere)
  enter : ∀ {found args location}, Mirrors (List.map value) (Eval.enter limit fuel found args location)
    (Eval.enter limit fuel (closure found) (args.map value) Location.nowhere)
  statements : ∀ {env body}, Mirrors flow (Eval.statements limit fuel env body)
    (Eval.statements limit fuel env (Unplaced.stmts .float body))
  block : ∀ {env body}, Mirrors flow (Eval.block limit fuel env body)
    (Eval.block limit fuel env (Unplaced.stmts .float body))
  header : ∀ {env init}, Mirrors id (Eval.header limit fuel env init)
    (Eval.header limit fuel env (Unplaced.optionalStmt .float init))
  statement : ∀ {env stmt}, Mirrors flow (Eval.statement limit fuel env stmt)
    (Eval.statement limit fuel env (Unplaced.stmt .float stmt))
  conditional : ∀ {env found}, Mirrors flow (Eval.conditional limit fuel env found)
    (Eval.conditional limit fuel env (Unplaced.ifStmt .float found))
  rounds : ∀ {env guard post body location}, Mirrors flow (Eval.rounds limit fuel env guard post body location)
    (Eval.rounds limit fuel env (Unplaced.optionalExpr .float guard) (Unplaced.optionalStmt .float post)
      (Unplaced.stmts .float body) Location.nowhere)
  proceeds : ∀ {env guard location}, Mirrors id (Eval.proceeds limit fuel env guard location)
    (Eval.proceeds limit fuel env (Unplaced.optionalExpr .float guard) Location.nowhere)
  switch : ∀ {env tag cases}, Mirrors flow (Eval.switch limit fuel env tag cases)
    (Eval.switch limit fuel env (Unplaced.optionalExpr .float tag) (Unplaced.cases .float cases))
  tagValue : ∀ {env tag}, Mirrors (Option.map tagged) (Eval.tagValue limit fuel env tag)
    (Eval.tagValue limit fuel env (Unplaced.optionalExpr .float tag))
  select : ∀ {env tag cases}, Mirrors (Option.map (Unplaced.switchCase .float)) (Eval.select limit fuel env tag cases)
    (Eval.select limit fuel env (tag.map tagged) (Unplaced.cases .float cases))
  anyMatches : ∀ {env tag location exprs}, Mirrors id (Eval.anyMatches limit fuel env tag location exprs)
    (Eval.anyMatches limit fuel env (tag.map tagged) Location.nowhere (Unplaced.exprs .float exprs))
  caseMatches : ∀ {env tag location expr}, Mirrors id (Eval.caseMatches limit fuel env tag location expr)
    (Eval.caseMatches limit fuel env (tag.map tagged) Location.nowhere (Unplaced.expr .float expr))
  returning : ∀ {env exprs location}, Mirrors flow (Eval.returning limit fuel env exprs location)
    (Eval.returning limit fuel env (Unplaced.exprs .float exprs) Location.nowhere)
  declare : ∀ {env target decl}, Mirrors id (Eval.declare limit fuel env target decl)
    (Eval.declare limit fuel env target (Unplaced.valueDecl .float decl))

namespace Mirroring

open Mirrors

theorem zero : Mirroring limit 0 where
  evaluate := exhausted
  condition := exhausted
  values := exhausted
  eachValue := exhausted
  call := exhausted
  apply := exhausted
  enter := exhausted
  statements := exhausted
  block := exhausted
  header := exhausted
  statement := exhausted
  conditional := exhausted
  rounds := exhausted
  proceeds := exhausted
  switch := exhausted
  tagValue := exhausted
  select := exhausted
  anyMatches := exhausted
  caseMatches := exhausted
  returning := exhausted
  declare := exhausted

variable (mirroring : Mirroring limit fuel)
include mirroring

theorem evaluate_succ {expr : Expr} : Mirrors value (Eval.evaluate limit (fuel + 1) env expr)
    (Eval.evaluate limit (fuel + 1) env (Unplaced.expr .float expr)) := by
  cases expr with
  | integer _ | float _ | string _ => exact pure
  | identifier name location =>
      refine lookup?.bind fun found => ?_
      cases found with
      | none => exact fail
      | some found =>
          cases found with
          | package _ => exact fail
          | _ => exact pure
  | qualified package name location => exact qualified
  | unary op operand location =>
      refine mirroring.evaluate.bind fun found => ?_
      rw [unary_value op found location]
      exact ofExcept
  | call callee args location =>
      refine mirroring.call.bind fun results => ?_
      match results with
      | [] => exact fail
      | [found] => exact pure
      | first :: second :: rest =>
          change Mirrors value (Eval.fail (.multiValue (first :: second :: rest).length location))
            (Eval.fail (.multiValue ((first :: second :: rest).map value).length Location.nowhere))
          rw [List.length_map]
          exact fail
  | function literal => exact literalName.bind fun _ => makeClosure
  | binary left op right location =>
      have operation : Mirrors value (do
          let leftValue ← Eval.evaluate limit fuel env left
          let rightValue ← Eval.evaluate limit fuel env right
          let pair := Value.unify leftValue left rightValue right
          Eval.ofExcept (Value.binary op pair.1 pair.2 location)) (do
          let leftValue ← Eval.evaluate limit fuel env (Unplaced.expr .float left)
          let rightValue ← Eval.evaluate limit fuel env (Unplaced.expr .float right)
          let pair := Value.unify leftValue (Unplaced.expr .float left) rightValue (Unplaced.expr .float right)
          Eval.ofExcept (Value.binary op pair.1 pair.2 Location.nowhere)) := by
        refine mirroring.evaluate.bind fun one => mirroring.evaluate.bind fun two => ?_
        dsimp only
        rw [unify_value, binary_value op _ _ location]
        exact ofExcept
      cases op with
      | and => exact mirroring.condition.bind fun outcome => choice (mirroring.condition.bind fun _ => pure) pure
      | or => exact mirroring.condition.bind fun outcome => choice pure (mirroring.condition.bind fun _ => pure)
      | _ => exact operation

theorem condition_succ {expr : Expr} : Mirrors id (Eval.condition limit (fuel + 1) env expr location)
    (Eval.condition limit (fuel + 1) env (Unplaced.expr .float expr) Location.nowhere) := by
  refine mirroring.evaluate.bind fun found => ?_
  rw [location?_expr, asBool_value found (expr.location?.getD location)]
  exact ofExcept

theorem values_succ {exprs : List Expr} : Mirrors (List.map sourced) (Eval.values limit (fuel + 1) env exprs)
    (Eval.values limit (fuel + 1) env (Unplaced.exprs .float exprs)) := by
  rcases exprs with _ | ⟨expr, _ | ⟨second, others⟩⟩
  · exact mirroring.eachValue
  · cases expr with
    | call callee args location =>
        refine mirroring.call.bind fun results => ?_
        rcases results with _ | ⟨first, _ | ⟨second, rest⟩⟩
        · exact pure
        · exact pure
        · have gives : Mirrors (List.map sourced) (Pure.pure ((first :: second :: rest).map fun found => (found, none))
            : Eval (List (Value × Option Expr))) _ := pure
          rw [List.map_map] at gives
          have same : ((first :: second :: rest).map value).map (fun found => ((found, none) : Value × Option Expr))
            = (first :: second :: rest).map (sourced ∘ fun found => (found, none)) := by
            rw [List.map_map]
            rfl
          rw [← same] at gives
          exact gives
    | _ => exact mirroring.eachValue
  · cases expr <;> exact mirroring.eachValue

theorem eachValue_succ {exprs : List Expr} : Mirrors (List.map sourced) (Eval.eachValue limit (fuel + 1) env exprs)
    (Eval.eachValue limit (fuel + 1) env (Unplaced.exprs .float exprs)) := by
  cases exprs with
  | nil => exact pure
  | cons expr rest => exact mirroring.evaluate.bind fun _ => mirroring.eachValue.bind fun _ => pure

theorem call_succ {callee : Expr} {args : List Expr} :
    Mirrors (List.map value) (Eval.call limit (fuel + 1) env callee args location)
      (Eval.call limit (fuel + 1) env (Unplaced.expr .float callee) (Unplaced.exprs .float args) Location.nowhere) := by
  refine mirroring.evaluate.bind fun function => mirroring.values.bind fun received => ?_
  have applied : ∀ given, Mirrors (List.map value) (do
      let results ← Eval.apply limit fuel function given location
      Eval.meet (.called (.call callee args location) function results)
      Pure.pure results) (do
      let results ← Eval.apply limit fuel (value function) (given.map value) Location.nowhere
      Eval.meet (.called (.call (Unplaced.expr .float callee) (Unplaced.exprs .float args) Location.nowhere)
        (value function) results)
      Pure.pure results) := fun given => mirroring.apply.bind fun results => meet.bind fun _ => pure
  cases function with
  | function found =>
      obtain ⟨identity, name, ⟨signature, body, place⟩, env⟩ := found
      have coerced := applied (Eval.coerceArguments signature.params received)
      rw [← coerceArguments_sourced] at coerced
      exact coerced
  | _ =>
      have plain := applied (received.map (·.1))
      rw [first_sourced] at plain
      exact plain

theorem apply_succ {function : Value} {args : List Value} :
    Mirrors (List.map value) (Eval.apply limit (fuel + 1) function args location)
      (Eval.apply limit (fuel + 1) (value function) (args.map value) Location.nowhere) := by
  cases function with
  | function found => exact mirroring.enter
  | builtin found => exact callBuiltin
  | _ => exact fail

theorem enter_succ {found : Closure} {args : List Value} :
    Mirrors (List.map value) (Eval.enter limit (fuel + 1) found args location)
      (Eval.enter limit (fuel + 1) (closure found) (args.map value) Location.nowhere) := by
  obtain ⟨identity, name, ⟨signature, body, place⟩, env⟩ := found
  refine depth.bind fun active => ?_
  rw [List.length_map]
  refine choice fail (choice fail (openScope.bind fun scope => bindParameters.bind fun _ => bindResults.bind fun _ =>
    mirroring.statements.inFrame.bind fun ended => resultsOf.bind fun results => ?_))
  rw [List.length_map]
  exact choice (meet.bind fun _ => pure) fail

theorem statements_succ {body : List Stmt} : Mirrors flow (Eval.statements limit (fuel + 1) env body)
    (Eval.statements limit (fuel + 1) env (Unplaced.stmts .float body)) := by
  cases body with
  | nil => exact pure
  | cons first rest =>
      refine mirroring.statement.bind fun found => ?_
      cases found with
      | normal => exact mirroring.statements
      | _ => exact pure

theorem block_succ {body : List Stmt} : Mirrors flow (Eval.block limit (fuel + 1) env body)
    (Eval.block limit (fuel + 1) env (Unplaced.stmts .float body)) := openScope.bind fun _ => mirroring.statements

theorem header_succ {init : Option Stmt} : Mirrors id (Eval.header limit (fuel + 1) env init)
    (Eval.header limit (fuel + 1) env (Unplaced.optionalStmt .float init)) := by
  cases init with
  | none => exact pure
  | some init => exact mirroring.statement.bind fun _ => pure

theorem statement_succ {stmt : Stmt} : Mirrors flow (Eval.statement limit (fuel + 1) env stmt)
    (Eval.statement limit (fuel + 1) env (Unplaced.stmt .float stmt)) := by
  cases stmt with
  | declare decl => exact mirroring.declare.bind fun _ => pure
  | define names exprs location =>
      refine mirroring.values.bind fun received => ?_
      rw [List.length_map]
      exact choice (defineValues.bind fun _ => pure) fail
  | assign targets exprs location =>
      refine mirroring.values.bind fun received => ?_
      rw [List.length_map]
      exact choice (storeValues.bind fun _ => pure) fail
  | compound target op expr location =>
      refine lookup.bind fun current => mirroring.evaluate.bind fun operand => ?_
      -- Only a float takes its operand converted; the update behind that is the same.
      have updates : ∀ operand : Value, Mirrors flow (do
          let updated ← Eval.ofExcept (Value.binary op current operand location)
          Eval.assign env target updated location
          Pure.pure Flow.normal) (do
          let updated ← Eval.ofExcept (Value.binary op (value current) (value operand) Location.nowhere)
          Eval.assign env target updated Location.nowhere
          Pure.pure Flow.normal) := by
        intro operand
        rw [binary_value op current operand location]
        exact ofExcept.bind fun updated => assign.bind fun _ => pure
      cases current with
      | float x =>
          have coerced := updates (operand.coerce (some expr) .float)
          rw [← coerce_value] at coerced
          exact coerced
      | _ => exact updates operand
  | step target up location => exact lookup.bind fun current => stepped.bind fun _ => assign.bind fun _ => pure
  | ifElse found => exact mirroring.conditional
  | loop init guard post body location =>
      exact openScope.bind fun _ => mirroring.header.bind fun _ => mirroring.rounds
  | switch init tag cases location =>
      exact openScope.bind fun _ => mirroring.header.bind fun _ => mirroring.switch
  | «return» exprs location => exact mirroring.returning
  | «break» location | «continue» location => exact pure
  | block body => exact mirroring.block
  | expression expr =>
      cases expr with
      | call callee args location => exact mirroring.call.bind fun _ => pure
      | _ => exact mirroring.evaluate.bind fun _ => pure

theorem conditional_succ {found : IfStmt} : Mirrors flow (Eval.conditional limit (fuel + 1) env found)
    (Eval.conditional limit (fuel + 1) env (Unplaced.ifStmt .float found)) := by
  obtain ⟨init, condition, body, orElse, location⟩ := found
  refine openScope.bind fun scope => mirroring.header.bind fun _ => mirroring.condition.bind fun outcome =>
    choice mirroring.block ?_
  cases orElse with
  | absent => exact pure
  | block body => exact mirroring.block
  | chain next => exact mirroring.conditional

theorem rounds_succ {guard : Option Expr} {post : Option Stmt} {body : List Stmt} :
    Mirrors flow (Eval.rounds limit (fuel + 1) env guard post body location)
      (Eval.rounds limit (fuel + 1) env (Unplaced.optionalExpr .float guard) (Unplaced.optionalStmt .float post)
        (Unplaced.stmts .float body) Location.nowhere) := by
  refine mirroring.proceeds.bind fun goes => choice (mirroring.block.bind fun found => ?_) pure
  cases found with
  | «break» | «return» results => exact pure
  | normal | «continue» => exact mirroring.header.bind fun _ => mirroring.rounds

theorem proceeds_succ {guard : Option Expr} : Mirrors id (Eval.proceeds limit (fuel + 1) env guard location)
    (Eval.proceeds limit (fuel + 1) env (Unplaced.optionalExpr .float guard) Location.nowhere) := by
  cases guard with
  | none => exact pure
  | some expr => exact mirroring.condition

theorem switch_succ {tag : Option Expr} {cases : List SwitchCase} :
    Mirrors flow (Eval.switch limit (fuel + 1) env tag cases)
      (Eval.switch limit (fuel + 1) env (Unplaced.optionalExpr .float tag) (Unplaced.cases .float cases)) := by
  refine mirroring.tagValue.bind fun tag => mirroring.select.bind fun selected => ?_
  have chosen : (selected.map (Unplaced.switchCase .float)).or (Eval.defaultCase (Unplaced.cases .float cases))
      = (selected.or (Eval.defaultCase cases)).map (Unplaced.switchCase .float) := by
    rw [defaultCase_cases]
    cases selected <;> rfl
  rw [chosen]
  cases selected.or (Eval.defaultCase cases) with
  | none => exact pure
  | some chosen =>
      obtain ⟨label, body, place⟩ := chosen
      refine mirroring.block.bind fun found => ?_
      cases found <;> exact pure

theorem tagValue_succ {tag : Option Expr} : Mirrors (Option.map tagged) (Eval.tagValue limit (fuel + 1) env tag)
    (Eval.tagValue limit (fuel + 1) env (Unplaced.optionalExpr .float tag)) := by
  cases tag with
  | none => exact pure
  | some expr => exact mirroring.evaluate.bind fun _ => pure

theorem select_succ {tag : Option (Value × Expr)} {cases : List SwitchCase} :
    Mirrors (Option.map (Unplaced.switchCase .float)) (Eval.select limit (fuel + 1) env tag cases)
      (Eval.select limit (fuel + 1) env (tag.map tagged) (Unplaced.cases .float cases)) := by
  cases cases with
  | nil => exact pure
  | cons first rest =>
      obtain ⟨label, body, place⟩ := first
      cases label with
      | otherwise => exact mirroring.select
      | values exprs => exact mirroring.anyMatches.bind fun matched => choice pure mirroring.select

theorem anyMatches_succ {tag : Option (Value × Expr)} {exprs : List Expr} :
    Mirrors id (Eval.anyMatches limit (fuel + 1) env tag location exprs)
      (Eval.anyMatches limit (fuel + 1) env (tag.map tagged) Location.nowhere (Unplaced.exprs .float exprs)) := by
  cases exprs with
  | nil => exact pure
  | cons expr rest => exact mirroring.caseMatches.bind fun matched => choice pure mirroring.anyMatches

theorem caseMatches_succ {tag : Option (Value × Expr)} {expr : Expr} :
    Mirrors id (Eval.caseMatches limit (fuel + 1) env tag location expr)
      (Eval.caseMatches limit (fuel + 1) env (tag.map tagged) Location.nowhere (Unplaced.expr .float expr)) := by
  cases tag with
  | none => exact mirroring.condition
  | some pair =>
      obtain ⟨tag, source⟩ := pair
      refine mirroring.evaluate.bind fun candidate => ?_
      have compares : Mirrors id
          (Eval.ofExcept ((Value.unify tag source candidate expr).1.equals (Value.unify tag source candidate expr).2
            (expr.location?.getD location)))
          (Eval.ofExcept ((value (Value.unify tag source candidate expr).1).equals
            (value (Value.unify tag source candidate expr).2) Location.nowhere)) := by
        rw [equals_value _ _ (expr.location?.getD location)]
        exact ofExcept
      rw [location?_expr]
      dsimp only
      rw [unify_value]
      exact compares

theorem returning_succ {exprs : List Expr} : Mirrors flow (Eval.returning limit (fuel + 1) env exprs location)
    (Eval.returning limit (fuel + 1) env (Unplaced.exprs .float exprs) Location.nowhere) := by
  cases exprs with
  | nil => exact pure
  | cons first rest =>
      refine frame?.bind fun frame => mirroring.values.bind fun received => ?_
      rw [List.length_map]
      exact choice (returnedValues.bind fun _ => pure) fail

theorem declare_succ {target : Env} {decl : ValueDecl} : Mirrors id (Eval.declare limit (fuel + 1) env target decl)
    (Eval.declare limit (fuel + 1) env target (Unplaced.valueDecl .float decl)) := by
  obtain ⟨isConst, names, type?, exprs, location⟩ := decl
  cases exprs with
  | nil =>
      cases type? with
      | none => exact fail
      | some type =>
          have zeros : (names.map fun _ => Value.zero type).map value = names.map fun _ => Value.zero type := by
            rw [List.map_map]
            exact List.map_congr_left fun _ _ => value_zero type
          have binds : Mirrors id (Eval.bindValues target (!isConst) (some type) names (names.map fun _ => .zero type)) _ :=
            bindValues
          rw [zeros] at binds
          exact binds
  | cons first rest =>
      refine mirroring.values.bind fun received => ?_
      rw [List.length_map]
      exact choice (declaredValues.bind fun _ => bindValues) fail

theorem succ : Mirroring limit (fuel + 1) where
  evaluate := mirroring.evaluate_succ
  condition := mirroring.condition_succ
  values := mirroring.values_succ
  eachValue := mirroring.eachValue_succ
  call := mirroring.call_succ
  apply := mirroring.apply_succ
  enter := mirroring.enter_succ
  statements := mirroring.statements_succ
  block := mirroring.block_succ
  header := mirroring.header_succ
  statement := mirroring.statement_succ
  conditional := mirroring.conditional_succ
  rounds := mirroring.rounds_succ
  proceeds := mirroring.proceeds_succ
  switch := mirroring.switch_succ
  tagValue := mirroring.tagValue_succ
  select := mirroring.select_succ
  anyMatches := mirroring.anyMatches_succ
  caseMatches := mirroring.caseMatches_succ
  returning := mirroring.returning_succ
  declare := mirroring.declare_succ

end Mirroring

theorem mirroring (limit fuel : Nat) : Mirroring limit fuel := by
  induction fuel with
  | zero => exact .zero
  | succ fuel ih => exact ih.succ

end MiniGo.Placeless
