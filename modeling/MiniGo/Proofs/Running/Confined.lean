import MiniGo.Eval.Evaluate
import MiniGo.Proofs.Running.Stores

/-!
# What code leaves alone

Code adds names to scopes that it opens itself and to no others. In the scopes that were there before it
writes variables and nothing else, so names, constants and functions stay as they are (`Spares`). That is
so for every code and every store: nothing has to be known of where names lead (`confining`).
-/

namespace MiniGo.Running

variable {bound : ScopeId} {before middle after : Store}

/-! ## Stores -/

/-- What a name is bound to before and after a run: the same, or another value of a variable. -/
def Rewritten (before after : Option Binding) : Prop :=
  after = before ∨ ∃ old new, before = some ⟨old, true⟩ ∧ after = some ⟨new, true⟩

theorem Rewritten.refl (binding? : Option Binding) : Rewritten binding? binding? := Or.inl rfl

theorem Rewritten.trans {first second third : Option Binding} (one : Rewritten first second)
    (two : Rewritten second third) : Rewritten first third := by
  rcases one with rfl | ⟨old, new, rfl, rfl⟩
  · exact two
  · rcases two with rfl | ⟨_, newer, _, rfl⟩
    · exact Or.inr ⟨old, new, rfl, rfl⟩
    · exact Or.inr ⟨old, newer, rfl, rfl⟩

/-- The scopes below a bound keep their names, and all of their bindings that are not variables. -/
structure Spares (bound : ScopeId) (before after : Store) : Prop where
  size : before.scopes.size ≤ after.scopes.size
  slots : ∀ id < bound, ∀ name, Rewritten ((before.scope id).find? name) ((after.scope id).find? name)

theorem Spares.refl (bound : ScopeId) (store : Store) : Spares bound store store :=
  ⟨Nat.le_refl _, fun _ _ _ => .refl _⟩

theorem Spares.trans (first : Spares bound before middle) (second : Spares bound middle after) :
    Spares bound before after :=
  ⟨first.size.trans second.size, fun id below name => (first.slots id below name).trans (second.slots id below name)⟩

theorem Spares.lower {least : ScopeId} (spares : Spares bound before after) (le : least ≤ bound) :
    Spares least before after :=
  ⟨spares.size, fun id below => spares.slots id (Nat.lt_of_lt_of_le below le)⟩

theorem spares_child (bound : ScopeId) (store : Store) (env : Env) : Spares bound store (store.child env).2 :=
  ⟨by rw [store.size_child]; exact Nat.le_succ _, fun id _ name => by rw [store.scope_child]; exact .refl _⟩

/-- The innermost scope of an environment, if it has one, is not below a bound. -/
def Above (bound : ScopeId) (env : Env) : Prop := ∀ id ∈ env.head?, bound ≤ id

theorem scope_bind_of_lt {env : Env} {id : ScopeId} (above : Above bound env) (store : Store) (name : String)
    (binding : Binding) (below : id < bound) : (store.bind env name binding).scope id = store.scope id := by
  unfold Store.bind
  split
  · rfl
  · cases env with
    | nil => rfl
    | cons innermost outer =>
        exact store.scope_modify_of_ne _ (Nat.ne_of_lt (Nat.lt_of_lt_of_le below (above innermost rfl)))

theorem spares_bind {env : Env} (above : Above bound env) (store : Store) (name : String) (binding : Binding) :
    Spares bound store (store.bind env name binding) := by
  refine ⟨(store.size_bind env name binding).ge, fun id below other => ?_⟩
  rw [scope_bind_of_lt above store name binding below]
  exact .refl _

theorem find?_of_target {store : Store} {env : Env} {name : String} {location : Location} {id : ScopeId}
    (found : store.target env name location = .ok id) : ∃ value, (store.scope id).find? name = some ⟨value, true⟩ := by
  unfold Store.target at found
  cases known : store.find? env name with
  | none => rw [known] at found; exact nomatch found
  | some entry =>
      obtain ⟨here, value, mutable⟩ := entry
      rw [known] at found
      cases mutable with
      | false => exact nomatch found
      | true =>
          obtain rfl : here = id := Except.ok.inj found
          exact ⟨value, Store.found_in_scope known⟩

theorem spares_write {store : Store} {id : ScopeId} {name : String} {value : Value}
    (variable_ : (store.scope id).find? name = some ⟨value, true⟩) (new : Value) :
    Spares bound store (store.write id name new) := by
  refine ⟨(store.size_modify id _).ge, fun other _ x => ?_⟩
  rw [Store.find?_write variable_]
  split
  · rename_i same
    rw [same.1, same.2, variable_]
    exact Or.inr ⟨_, _, rfl, rfl⟩
  · exact .refl _

/-! ## Computations -/

/-- A computation leaves the scopes below a bound alone, however it ends. -/
def Confined (bound : ScopeId) (action : Eval α) : Prop :=
  ∀ machine, bound ≤ machine.store.scopes.size →
    match action machine with
    | .ok _ after | .error _ after => Spares bound machine.store after.store

namespace Confined

variable {env : Env} {name : String} {location : Location} {action : Eval α} {next : α → Eval β}

theorem pure {value : α} : Confined bound (Pure.pure value) := fun _ _ => .refl _ _

theorem fail {error : RuntimeError} : Confined bound (Eval.fail error : Eval α) := fun _ _ => .refl _ _

theorem exhausted : Confined bound (Eval.exhausted : Eval α) := fun _ _ => .refl _ _

theorem bind (first : Confined bound action) (rest : ∀ value, Confined bound (next value)) :
    Confined bound (action >>= next) := by
  intro machine old
  have spares := first machine old
  change match EStateM.bind action next machine with | .ok _ after | .error _ after => _
  unfold EStateM.bind
  cases ran : action machine with
  | error halt after =>
      rw [ran] at spares
      exact spares
  | ok value middle =>
      rw [ran] at spares
      have later := rest value middle (old.trans spares.size)
      dsimp only at spares ⊢
      split at later <;> exact spares.trans later

theorem choice {condition : Prop} [Decidable condition] {yes no : Eval α} (one : Confined bound yes)
    (two : Confined bound no) : Confined bound (if condition then yes else no) := by
  split
  · exact one
  · exact two

theorem inScope {next : Env → Eval β} (rest : ∀ inner, Above bound inner → Confined bound (next inner)) :
    Confined bound (Eval.openScope env >>= next) := by
  intro machine old
  let opened : Machine := { machine.met (.opened env) with store := (machine.store.child env).2 }
  have spares : Spares bound machine.store opened.store := spares_child bound _ env
  have above : Above bound (machine.store.child env).1 := fun id first => by
    obtain rfl : machine.store.scopes.size = id := Option.some.inj first
    exact old
  have later := rest _ above opened (old.trans spares.size)
  change match next (machine.store.child env).1 opened with | .ok _ after | .error _ after => _
  split at later <;> exact spares.trans later

theorem inFrame {frame : Frame} (body : Confined bound action) : Confined bound (Eval.inFrame frame action) := by
  intro machine old
  have spares := body { machine with calls := machine.calls.push frame } old
  unfold Eval.inFrame
  cases ran : action { machine with calls := machine.calls.push frame } <;> rw [ran] at spares <;> exact spares

theorem ofExcept {result : Except RuntimeError α} : Confined bound (Eval.ofExcept result) := by
  intro machine _
  unfold Eval.ofExcept
  cases result <;> exact .refl _ _

theorem meet {event : Event} : Confined bound (Eval.meet event) := fun _ _ => .refl _ _

theorem lookup? : Confined bound (Eval.lookup? env name location) := fun _ _ => .refl _ _

theorem lookupLocal? : Confined bound (Eval.lookupLocal? env name) := fun _ _ => .refl _ _

theorem hasLocal : Confined bound (Eval.hasLocal env name) := fun _ _ => .refl _ _

theorem depth : Confined bound Eval.depth := fun _ _ => .refl _ _

theorem frame? : Confined bound Eval.frame? := fun _ _ => .refl _ _

theorem makeClosure {literal : FunctionLiteral} : Confined bound (Eval.makeClosure name literal env) :=
  fun _ _ => .refl _ _

theorem lookup : Confined bound (Eval.lookup env name location) := by
  intro machine _
  unfold Eval.lookup
  cases machine.store.get? env name <;> exact .refl _ _

theorem callBuiltin {function : Builtin} {args : List Value} :
    Confined bound (Eval.callBuiltin function args location) := by
  intro machine _
  unfold Eval.callBuiltin
  cases function.call args location <;> exact .refl _ _

theorem bindTyped {type? : Option Ty} {value : Value} {mutable : Bool} (above : Above bound env) :
    Confined bound (Eval.bindTyped env name type? value mutable) :=
  fun _ _ => spares_bind above _ _ _

theorem assign {value : Value} : Confined bound (Eval.assign env name value location) := by
  intro machine _
  unfold Eval.assign
  cases found : machine.store.target env name location with
  | error error => exact .refl _ _
  | ok id =>
      obtain ⟨_, variable_⟩ := find?_of_target found
      exact spares_write variable_ value

/-! ### Names and values -/

theorem qualified {package : String} : Confined bound (Eval.qualified env package name location) := by
  refine .bind .meet fun _ => .bind .lookup? fun found => ?_
  split
  · refine .choice (.bind .lookupLocal? fun value? => ?_) .fail
    cases value? with
    | none => exact .fail
    | some value => exact .pure
  · exact .fail
  · exact .fail

theorem storeValue {value : Value} {source : Option Expr} :
    Confined bound (Eval.storeValue env name value source location) :=
  .bind .lookup fun _ => .choice .assign .fail

theorem storeValues {targets : List String} {received : List (Value × Option Expr)} :
    Confined bound (Eval.storeValues env location targets received) := by
  induction targets generalizing received with
  | nil => exact .pure
  | cons target targets ih =>
      cases received with
      | nil => exact .pure
      | cons pair received =>
          rw [Eval.storeValues]
          exact .choice ih (.bind .storeValue fun _ => ih)

theorem defineValues {names : List String} {received : List (Value × Option Expr)} (above : Above bound env) :
    Confined bound (Eval.defineValues env location names received) := by
  induction names generalizing received with
  | nil => exact .pure
  | cons name names ih =>
      cases received with
      | nil => exact .pure
      | cons pair received =>
          rw [Eval.defineValues]
          refine .choice ih (.bind .hasLocal fun _ => .choice (.bind .storeValue fun _ => ih) ?_)
          exact .bind (.bindTyped above) fun _ => ih

theorem bindValues {mutable : Bool} {type? : Option Ty} {names : List String} {values : List Value}
    (above : Above bound env) : Confined bound (Eval.bindValues env mutable type? names values) := by
  fun_induction Eval.bindValues env mutable type? names values with
  | case1 name names value values ih => exact .bind (.bindTyped above) fun _ => ih
  | case2 => exact .pure

theorem declaredValue {type? : Option Ty} {value : Value} {source : Option Expr} :
    Confined bound (Eval.declaredValue type? location value source) := by
  cases type? with
  | none => exact .pure
  | some type => exact .choice .pure .fail

theorem declaredValues {type? : Option Ty} {received : List (Value × Option Expr)} :
    Confined bound (Eval.declaredValues type? location received) := by
  fun_induction Eval.declaredValues type? location received with
  | case1 => exact .pure
  | case2 value source rest ih => exact .bind .declaredValue fun _ => .bind ih fun _ => .pure

theorem returnedValues {types : List Ty} {received : List (Value × Option Expr)} :
    Confined bound (Eval.returnedValues location types received) := by
  induction types generalizing received with
  | nil => exact .pure
  | cons type types ih =>
      cases received with
      | nil => exact .pure
      | cons pair received =>
          rw [Eval.returnedValues]
          exact .choice (.bind ih fun _ => .pure) .fail

theorem bindParameters {function : String} {params : List Parameter} {args : List Value}
    (above : Above bound env) : Confined bound (Eval.bindParameters env function location params args) := by
  induction params generalizing args with
  | nil => exact .pure
  | cons param params ih =>
      cases args with
      | nil => exact .pure
      | cons arg args =>
          rw [Eval.bindParameters]
          exact .choice (.bind (.bindTyped above) fun _ => ih) (.bind .fail fun _ => ih)

theorem bindResults {names : List String} {types : List Ty} (above : Above bound env) :
    Confined bound (Eval.bindResults env names types) := by
  fun_induction Eval.bindResults env names types with
  | case1 name names type types ih => exact .bind (.bindTyped above) fun _ => ih
  | case2 => exact .pure

theorem namedResults {names : List String} {types : List Ty} :
    Confined bound (Eval.namedResults env names types) := by
  fun_induction Eval.namedResults env names types with
  | case1 name names type types ih => exact .bind .lookupLocal? fun _ => .bind ih fun _ => .pure
  | case2 => exact .pure

theorem resultsOf {signature : Signature} {flow : Flow} : Confined bound (Eval.resultsOf env signature flow) := by
  unfold Eval.resultsOf
  split
  · exact .choice .pure .namedResults
  · exact .pure
  · exact .pure

theorem stepped {up : Bool} {value : Value} : Confined bound (Eval.stepped name up location value) := by
  unfold Eval.stepped
  split
  · exact .pure
  · exact .pure
  · exact .fail

theorem literalName : Confined bound Eval.literalName := by
  refine .bind .frame? fun frame => ?_
  cases frame with
  | none => exact .pure
  | some frame => exact .pure

end Confined

/-! ## Code -/

/-- Every function of the evaluator leaves the scopes below a bound alone, run with a bound on its length. Those
that may declare names run in a scope that is not below it. -/
structure Confining (bound : ScopeId) (limit fuel : Nat) : Prop where
  evaluate : ∀ {env expr}, Confined bound (Eval.evaluate limit fuel env expr)
  condition : ∀ {env expr location}, Confined bound (Eval.condition limit fuel env expr location)
  values : ∀ {env exprs}, Confined bound (Eval.values limit fuel env exprs)
  eachValue : ∀ {env exprs}, Confined bound (Eval.eachValue limit fuel env exprs)
  call : ∀ {env callee args location}, Confined bound (Eval.call limit fuel env callee args location)
  apply : ∀ {function args location}, Confined bound (Eval.apply limit fuel function args location)
  enter : ∀ {closure args location}, Confined bound (Eval.enter limit fuel closure args location)
  statements : ∀ {env body}, Above bound env → Confined bound (Eval.statements limit fuel env body)
  block : ∀ {env body}, Confined bound (Eval.block limit fuel env body)
  header : ∀ {env init}, Above bound env → Confined bound (Eval.header limit fuel env init)
  statement : ∀ {env stmt}, Above bound env → Confined bound (Eval.statement limit fuel env stmt)
  conditional : ∀ {env found}, Confined bound (Eval.conditional limit fuel env found)
  rounds : ∀ {env guard post body location}, Above bound env →
    Confined bound (Eval.rounds limit fuel env guard post body location)
  proceeds : ∀ {env guard location}, Confined bound (Eval.proceeds limit fuel env guard location)
  switch : ∀ {env tag cases}, Confined bound (Eval.switch limit fuel env tag cases)
  tagValue : ∀ {env tag}, Confined bound (Eval.tagValue limit fuel env tag)
  select : ∀ {env tagged cases}, Confined bound (Eval.select limit fuel env tagged cases)
  anyMatches : ∀ {env tagged location exprs}, Confined bound (Eval.anyMatches limit fuel env tagged location exprs)
  caseMatches : ∀ {env tagged location expr}, Confined bound (Eval.caseMatches limit fuel env tagged location expr)
  returning : ∀ {env exprs location}, Confined bound (Eval.returning limit fuel env exprs location)
  declare : ∀ {env target decl}, Above bound target → Confined bound (Eval.declare limit fuel env target decl)

theorem confining_zero (bound : ScopeId) (limit : Nat) : Confining bound limit 0 where
  evaluate := .exhausted
  condition := .exhausted
  values := .exhausted
  eachValue := .exhausted
  call := .exhausted
  apply := .exhausted
  enter := .exhausted
  statements _ := .exhausted
  block := .exhausted
  header _ := .exhausted
  statement _ := .exhausted
  conditional := .exhausted
  rounds _ := .exhausted
  proceeds := .exhausted
  switch := .exhausted
  tagValue := .exhausted
  select := .exhausted
  anyMatches := .exhausted
  caseMatches := .exhausted
  returning := .exhausted
  declare _ := .exhausted

namespace Confining

variable {limit fuel : Nat} {env : Env} {location : Location}

theorem evaluate_succ (confining : Confining bound limit fuel) {expr : Expr} :
    Confined bound (Eval.evaluate limit (fuel + 1) env expr) := by
  cases expr with
  | integer value | float value | string value => exact .pure
  | identifier name location =>
      refine .bind .lookup? fun found => ?_
      split
      · exact .fail
      · exact .pure
      · exact .fail
  | qualified package name location => exact .qualified
  | unary op operand location => exact .bind confining.evaluate fun _ => .ofExcept
  | call callee args location =>
      refine .bind confining.call fun results => ?_
      split
      · exact .pure
      · exact .fail
      · exact .fail
  | function literal => exact .bind .literalName fun _ => .makeClosure
  | binary left op right location =>
      -- The right operand of a logical operator.
      have second : Confined bound (do
          let outcome ← Eval.condition limit fuel env right location
          pure (.bool outcome) : Eval Value) := .bind confining.condition fun _ => .pure
      cases op with
      | and => exact .bind confining.condition fun _ => .choice second .pure
      | or => exact .bind confining.condition fun _ => .choice .pure second
      | _ => exact .bind confining.evaluate fun _ => .bind confining.evaluate fun _ => .ofExcept

theorem values_succ (confining : Confining bound limit fuel) {exprs : List Expr} :
    Confined bound (Eval.values limit (fuel + 1) env exprs) := by
  unfold Eval.values
  split
  · refine .bind confining.call fun results => ?_
    split <;> exact .pure
  · exact confining.eachValue

theorem eachValue_succ (confining : Confining bound limit fuel) {exprs : List Expr} :
    Confined bound (Eval.eachValue limit (fuel + 1) env exprs) := by
  cases exprs with
  | nil => exact .pure
  | cons expr rest => exact .bind confining.evaluate fun _ => .bind confining.eachValue fun _ => .pure

theorem apply_succ (confining : Confining bound limit fuel) {function : Value} {args : List Value} :
    Confined bound (Eval.apply limit (fuel + 1) function args location) := by
  cases function with
  | function closure => exact confining.enter
  | builtin found => exact .callBuiltin
  | _ => exact .fail

theorem enter_succ (confining : Confining bound limit fuel) {closure : Closure} {args : List Value} :
    Confined bound (Eval.enter limit (fuel + 1) closure args location) := by
  refine .bind .depth fun active => .choice .fail (.choice .fail (.inScope fun inner above => ?_))
  refine .bind (.bindParameters above) fun _ => .bind (.bindResults above) fun _ =>
    .bind (.inFrame (confining.statements above)) fun flow => .bind .resultsOf fun results => ?_
  exact .choice (.bind .meet fun _ => .pure) .fail

theorem statements_succ (confining : Confining bound limit fuel) {body : List Stmt} (above : Above bound env) :
    Confined bound (Eval.statements limit (fuel + 1) env body) := by
  cases body with
  | nil => exact .pure
  | cons first rest =>
      refine .bind (confining.statement above) fun flow => ?_
      cases flow with
      | normal => exact confining.statements above
      | _ => exact .pure

theorem header_succ (confining : Confining bound limit fuel) {init : Option Stmt} (above : Above bound env) :
    Confined bound (Eval.header limit (fuel + 1) env init) := by
  cases init with
  | none => exact .pure
  | some init => exact .bind (confining.statement above) fun _ => .pure

/-- A statement that declares nothing may run in any scope. -/
theorem undeclaring_succ (confining : Confining bound limit fuel) {stmt : Stmt}
    (plain : ∀ decl, stmt ≠ .declare decl)
    (long : ∀ names exprs location, stmt ≠ .define names exprs location) :
    Confined bound (Eval.statement limit (fuel + 1) env stmt) := by
  cases stmt with
  | declare decl => exact absurd rfl (plain decl)
  | define names exprs location => exact absurd rfl (long names exprs location)
  | assign targets exprs location =>
      exact .bind confining.values fun _ => .choice (.bind .storeValues fun _ => .pure) .fail
  | compound target op expr location =>
      exact .bind .lookup fun _ => .bind confining.evaluate fun _ => .bind .ofExcept fun _ =>
        .bind .assign fun _ => .pure
  | step target up location =>
      exact .bind .lookup fun _ => .bind .stepped fun _ => .bind .assign fun _ => .pure
  | ifElse found => exact confining.conditional
  | loop init guard post body location =>
      exact .inScope fun _ inside => .bind (confining.header inside) fun _ => confining.rounds inside
  | switch init tag cases location =>
      exact .inScope fun _ inside => .bind (confining.header inside) fun _ => confining.switch
  | «return» exprs location => exact confining.returning
  | «break» location | «continue» location => exact .pure
  | block body => exact confining.block
  | expression expr =>
      cases expr with
      | call callee args location => exact .bind confining.call fun _ => .pure
      | _ => exact .bind confining.evaluate fun _ => .pure

theorem statement_succ (confining : Confining bound limit fuel) {stmt : Stmt} (above : Above bound env) :
    Confined bound (Eval.statement limit (fuel + 1) env stmt) := by
  cases stmt with
  | declare decl => exact .bind (confining.declare above) fun _ => .pure
  | define names exprs location =>
      exact .bind confining.values fun _ => .choice (.bind (.defineValues above) fun _ => .pure) .fail
  | _ => exact confining.undeclaring_succ nofun nofun

theorem conditional_succ (confining : Confining bound limit fuel) {found : IfStmt} :
    Confined bound (Eval.conditional limit (fuel + 1) env found) := by
  refine .inScope fun _ above => .bind (confining.header above) fun _ => .bind confining.condition fun _ =>
    .choice confining.block ?_
  cases found.orElse with
  | absent => exact .pure
  | block body => exact confining.block
  | chain next => exact confining.conditional

theorem rounds_succ (confining : Confining bound limit fuel) {guard : Option Expr} {post : Option Stmt}
    {body : List Stmt} (above : Above bound env) :
    Confined bound (Eval.rounds limit (fuel + 1) env guard post body location) := by
  refine .bind confining.proceeds fun goes => .choice (.bind confining.block fun flow => ?_) .pure
  have again : Confined bound (do
      Eval.header limit fuel env post
      Eval.rounds limit fuel env guard post body location) :=
    .bind (confining.header above) fun _ => confining.rounds above
  cases flow with
  | normal | «continue» => exact again
  | «break» | «return» values => exact .pure

theorem proceeds_succ (confining : Confining bound limit fuel) {guard : Option Expr} :
    Confined bound (Eval.proceeds limit (fuel + 1) env guard location) := by
  cases guard with
  | none => exact .pure
  | some expr => exact confining.condition

theorem switch_succ (confining : Confining bound limit fuel) {tag : Option Expr} {cases : List SwitchCase} :
    Confined bound (Eval.switch limit (fuel + 1) env tag cases) := by
  refine .bind confining.tagValue fun tagged => .bind confining.select fun selected => ?_
  cases selected.or (Eval.defaultCase cases) with
  | none => exact .pure
  | some found =>
      refine .bind confining.block fun flow => ?_
      cases flow <;> exact .pure

theorem tagValue_succ (confining : Confining bound limit fuel) {tag : Option Expr} :
    Confined bound (Eval.tagValue limit (fuel + 1) env tag) := by
  cases tag with
  | none => exact .pure
  | some expr => exact .bind confining.evaluate fun _ => .pure

theorem select_succ (confining : Confining bound limit fuel) {tagged : Option (Value × Expr)}
    {cases : List SwitchCase} : Confined bound (Eval.select limit (fuel + 1) env tagged cases) := by
  cases cases with
  | nil => exact .pure
  | cons first rest =>
      obtain ⟨label, body, location⟩ := first
      cases label with
      | otherwise => exact confining.select
      | values exprs => exact .bind confining.anyMatches fun _ => .choice .pure confining.select

theorem anyMatches_succ (confining : Confining bound limit fuel) {tagged : Option (Value × Expr)}
    {exprs : List Expr} : Confined bound (Eval.anyMatches limit (fuel + 1) env tagged location exprs) := by
  cases exprs with
  | nil => exact .pure
  | cons expr rest => exact .bind confining.caseMatches fun _ => .choice .pure confining.anyMatches

theorem caseMatches_succ (confining : Confining bound limit fuel) {tagged : Option (Value × Expr)} {expr : Expr} :
    Confined bound (Eval.caseMatches limit (fuel + 1) env tagged location expr) := by
  cases tagged with
  | none => exact confining.condition
  | some pair => exact .bind confining.evaluate fun _ => .ofExcept

theorem returning_succ (confining : Confining bound limit fuel) {exprs : List Expr} :
    Confined bound (Eval.returning limit (fuel + 1) env exprs location) := by
  cases exprs with
  | nil => exact .pure
  | cons first rest =>
      exact .bind .frame? fun _ => .bind confining.values fun _ =>
        .choice (.bind .returnedValues fun _ => .pure) .fail

theorem declare_succ (confining : Confining bound limit fuel) {target : Env} {decl : ValueDecl}
    (above : Above bound target) : Confined bound (Eval.declare limit (fuel + 1) env target decl) := by
  unfold Eval.declare
  split
  · cases decl.type? with
    | none => exact .fail
    | some type => exact .bindValues above
  · exact .bind confining.values fun _ =>
      .choice (.bind .declaredValues fun _ => .bindValues above) .fail

theorem succ (confining : Confining bound limit fuel) : Confining bound limit (fuel + 1) where
  evaluate := confining.evaluate_succ
  condition := .bind confining.evaluate fun _ => .ofExcept
  values := confining.values_succ
  eachValue := confining.eachValue_succ
  call := .bind confining.evaluate fun _ => .bind confining.values fun _ => .bind confining.apply fun _ =>
    .bind .meet fun _ => .pure
  apply := confining.apply_succ
  enter := confining.enter_succ
  statements := confining.statements_succ
  block := .inScope fun _ above => confining.statements above
  header := confining.header_succ
  statement := confining.statement_succ
  conditional := confining.conditional_succ
  rounds := confining.rounds_succ
  proceeds := confining.proceeds_succ
  switch := confining.switch_succ
  tagValue := confining.tagValue_succ
  select := confining.select_succ
  anyMatches := confining.anyMatches_succ
  caseMatches := confining.caseMatches_succ
  returning := confining.returning_succ
  declare := confining.declare_succ

end Confining

theorem confining (bound : ScopeId) (limit fuel : Nat) : Confining bound limit fuel := by
  induction fuel with
  | zero => exact confining_zero bound limit
  | succ fuel ih => exact ih.succ

end MiniGo.Running
