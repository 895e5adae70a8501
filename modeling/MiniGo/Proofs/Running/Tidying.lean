import MiniGo.Proofs.Running.Tidy

/-!
# Code keeps machines tidy

Every function of the evaluator keeps tidy machines tidy, and the kinds of the variables below any bound, for
all code that the grammar has (`tidying`). A compound assignment is the one statement that reads a variable and
writes it much later; in between, the kind of the variable stays, and so does the kind that its operator gives.
-/

namespace MiniGo.Running

open Syntax

/-- Every function of the evaluator keeps machines tidy, run with a bound on its length. Those that may declare
names run in a scope that is not below the bound on scopes. -/
structure Tidying (limit fuel : Nat) : Prop where
  evaluate : ∀ {size bound env expr}, Within size env → Formed.expr expr →
    Tidies size bound (Eval.evaluate limit fuel env expr) Housed
  condition : ∀ {size bound env expr location}, Within size env → Formed.expr expr →
    Tidies size bound (Eval.condition limit fuel env expr location) Anything
  values : ∀ {size bound env exprs}, Within size env → Formed.exprs exprs →
    Tidies size bound (Eval.values limit fuel env exprs) PairsHoused
  eachValue : ∀ {size bound env exprs}, Within size env → Formed.exprs exprs →
    Tidies size bound (Eval.eachValue limit fuel env exprs) PairsHoused
  call : ∀ {size bound env callee args location}, Within size env → Formed.expr callee → Formed.exprs args →
    Tidies size bound (Eval.call limit fuel env callee args location) AllHoused
  apply : ∀ {size bound function args location}, Rooted size function → (∀ arg ∈ args, Rooted size arg) →
    Tidies size bound (Eval.apply limit fuel function args location) AllHoused
  enter : ∀ {size bound closure args location}, Rooted size (.function closure) → (∀ arg ∈ args, Rooted size arg) →
    Tidies size bound (Eval.enter limit fuel closure args location) AllHoused
  statements : ∀ {size bound env body}, Within size env → Above bound env → Formed.stmts body →
    Tidies size bound (Eval.statements limit fuel env body) FlowHoused
  block : ∀ {size bound env body}, Within size env → Formed.stmts body →
    Tidies size bound (Eval.block limit fuel env body) FlowHoused
  header : ∀ {size bound env init}, Within size env → Above bound env → Formed.header init →
    Tidies size bound (Eval.header limit fuel env init) Anything
  statement : ∀ {size bound env stmt}, Within size env → Above bound env → Formed.stmt stmt →
    Tidies size bound (Eval.statement limit fuel env stmt) FlowHoused
  conditional : ∀ {size bound env found}, Within size env → Formed.ifStmt found →
    Tidies size bound (Eval.conditional limit fuel env found) FlowHoused
  rounds : ∀ {size bound env guard post body location}, Within size env → Above bound env →
    Formed.optionalExpr guard → Formed.header post → Formed.stmts body →
    Tidies size bound (Eval.rounds limit fuel env guard post body location) FlowHoused
  proceeds : ∀ {size bound env guard location}, Within size env → Formed.optionalExpr guard →
    Tidies size bound (Eval.proceeds limit fuel env guard location) Anything
  switch : ∀ {size bound env tag cases}, Within size env → Formed.optionalExpr tag → Formed.cases cases →
    Tidies size bound (Eval.switch limit fuel env tag cases) FlowHoused
  tagValue : ∀ {size bound env tag}, Within size env → Formed.optionalExpr tag →
    Tidies size bound (Eval.tagValue limit fuel env tag) Anything
  select : ∀ {size bound env tagged cases}, Within size env → Formed.cases cases →
    Tidies size bound (Eval.select limit fuel env tagged cases)
      fun _ selected => ∀ found, selected = some found → Formed.stmts found.body
  anyMatches : ∀ {size bound env tagged location exprs}, Within size env → Formed.exprs exprs →
    Tidies size bound (Eval.anyMatches limit fuel env tagged location exprs) Anything
  caseMatches : ∀ {size bound env tagged location expr}, Within size env → Formed.expr expr →
    Tidies size bound (Eval.caseMatches limit fuel env tagged location expr) Anything
  returning : ∀ {size bound env exprs location}, Within size env → Formed.exprs exprs →
    Tidies size bound (Eval.returning limit fuel env exprs location) FlowHoused
  declare : ∀ {size bound env target decl}, Within size env → Above bound target → Formed.exprs decl.values →
    Tidies size bound (Eval.declare limit fuel env target decl) Anything

variable {size bound limit fuel : Nat} {env : Env} {location : Location}

theorem Tidying.zero : Tidying limit 0 where
  evaluate _ _ := .exhausted
  condition _ _ := .exhausted
  values _ _ := .exhausted
  eachValue _ _ := .exhausted
  call _ _ _ := .exhausted
  apply _ _ := .exhausted
  enter _ _ := .exhausted
  statements _ _ _ := .exhausted
  block _ _ := .exhausted
  header _ _ _ := .exhausted
  statement _ _ _ := .exhausted
  conditional _ _ := .exhausted
  rounds _ _ _ _ _ := .exhausted
  proceeds _ _ := .exhausted
  switch _ _ _ := .exhausted
  tagValue _ _ := .exhausted
  select _ _ := .exhausted
  anyMatches _ _ := .exhausted
  caseMatches _ _ := .exhausted
  returning _ _ := .exhausted
  declare _ _ _ := .exhausted

theorem flowHoused_of_plain {flow : Flow} (plain : ∀ values, flow ≠ .return values) : FlowHoused size flow :=
  fun values same => absurd same (plain values)

theorem FlowHoused.mono {larger : Nat} {flow : Flow} (housed : FlowHoused size flow) (le : size ≤ larger) :
    FlowHoused larger flow :=
  fun values same value member => (housed values same value member).mono le

theorem PairsHoused.cons {larger : Nat} {pair : Value × Option Expr} {rest : List (Value × Option Expr)}
    (first : Housed size pair.1) (le : size ≤ larger) (others : PairsHoused larger rest) :
    PairsHoused larger (pair :: rest) := List.forall_mem_cons.mpr ⟨first.mono le, others⟩

theorem formed_default {cases : List SwitchCase} (formed : Formed.cases cases) {found : SwitchCase}
    (chosen : Eval.defaultCase cases = some found) : Formed.stmts found.body := by
  have member := List.mem_of_find?_eq_some chosen
  clear chosen
  induction cases with
  | nil => exact absurd member List.not_mem_nil
  | cons first rest ih =>
      obtain ⟨label, body, place⟩ := first
      rw [Formed.cases] at formed
      rcases List.mem_cons.mp member with rfl | later
      · exact formed.2.1
      · exact ih formed.2.2 later

theorem step_succ {target : String} {up : Bool} :
    Tidies size bound (Eval.statement limit (fuel + 1) env (.step target up location)) FlowHoused := by
  intro machine tidy le old
  change Tidied bound machine.store FlowHoused (EStateM.bind (Eval.lookup env target location) _ machine)
  unfold EStateM.bind Eval.lookup
  cases found : machine.store.get? env target with
  | none => exact ⟨tidy.met _, .refl _ _⟩
  | some current =>
      obtain ⟨⟨id, binding⟩, known, rfl⟩ := Option.map_eq_some_iff.mp found
      have writes : ∀ updated : Value, isScalar updated.kind = true → updated.kind = binding.value.kind →
          Tidied bound machine.store FlowHoused ((do
            Eval.assign env target updated location
            pure Flow.normal) (machine.met (.used env target location))) := by
        intro updated scalar same
        refine .seq (Nat.le_refl _) (tidied_assign (tidy.met _) (housed_of_scalar scalar) fun other old now => ?_)
          fun _ last tidyLast _ _ => ⟨tidyLast, .refl _ _, flowHoused_of_plain nofun⟩
        have now : machine.store.find? env target = some (other, ⟨old, true⟩) := now
        rw [known] at now
        cases now
        exact same
      dsimp only
      generalize binding.value = current at writes
      cases current with
      | int n => exact writes _ rfl rfl
      | float x => exact writes _ rfl rfl
      | _ => exact ⟨tidy.met _, .refl _ _⟩

namespace Tidying

variable (tidying : Tidying limit fuel)
include tidying

/-! ## Expressions -/

theorem evaluate_succ {expr : Expr} (within : Within size env) (formed : Formed.expr expr) :
    Tidies size bound (Eval.evaluate limit (fuel + 1) env expr) Housed := by
  cases expr with
  | integer value | float value | string value => exact .pure fun _ _ => housed_of_scalar rfl
  | identifier name location =>
      refine Tidies.lookup?.bind fun _ found _ housed => ?_
      split
      · exact .fail
      · exact .pure fun _ more => (housed _ rfl).mono more
      · exact .fail
  | qualified package name location => exact .qualified
  | unary op operand location =>
      rw [Formed.expr] at formed
      exact (tidying.evaluate within formed).bind fun _ _ _ _ =>
        .ofExcept fun _ done _ => housed_of_scalar (unary_scalar done)
  | call callee args location =>
      rw [Formed.expr] at formed
      refine (tidying.call within formed.1 formed.2).bind fun _ results _ housed => ?_
      split
      · exact .pure fun _ more => (housed _ (List.mem_singleton_self _)).mono more
      · exact .fail
      · exact .fail
  | function literal =>
      rw [Formed.expr] at formed
      exact Tidies.literalName.bind fun _ _ more _ => .makeClosure (within.mono more) formed
  | binary left op right location =>
      rw [Formed.expr] at formed
      have second : ∀ larger, size ≤ larger → Tidies larger bound (do
          let outcome ← Eval.condition limit fuel env right location
          pure (.bool outcome) : Eval Value) Housed := fun _ more =>
        (tidying.condition (within.mono more) formed.2).bind fun _ _ _ _ => .pure fun _ _ => housed_of_scalar rfl
      have known : ∀ larger outcome, Tidies larger bound (pure (.bool outcome) : Eval Value) Housed :=
        fun _ _ => .pure fun _ _ => housed_of_scalar rfl
      cases op with
      | and => exact (tidying.condition within formed.1).bind fun _ _ more _ => .choice (second _ more) (known _ _)
      | or => exact (tidying.condition within formed.1).bind fun _ _ more _ => .choice (known _ _) (second _ more)
      | _ =>
          refine (tidying.evaluate within formed.1).bind fun _ _ more _ =>
            (tidying.evaluate (within.mono more) formed.2).bind fun _ _ _ _ => .ofExcept fun value done _ => ?_
          exact housed_of_scalar (binary_scalar done)

theorem condition_succ {expr : Expr} (within : Within size env) (formed : Formed.expr expr) :
    Tidies size bound (Eval.condition limit (fuel + 1) env expr location) Anything :=
  (tidying.evaluate within formed).bind fun _ _ _ _ => .ofExcept fun _ _ _ => trivial

theorem eachValue_succ {exprs : List Expr} (within : Within size env) (formed : Formed.exprs exprs) :
    Tidies size bound (Eval.eachValue limit (fuel + 1) env exprs) PairsHoused := by
  cases exprs with
  | nil => exact .pure fun _ _ pair member => absurd member List.not_mem_nil
  | cons expr rest =>
      rw [Formed.exprs] at formed
      refine (tidying.evaluate within formed.1).bind fun _ _ more housed =>
        (tidying.eachValue (within.mono more) formed.2).bind fun _ _ again others => .pure fun _ last => ?_
      exact PairsHoused.cons housed (again.trans last) fun pair member => (others pair member).mono last

theorem values_succ {exprs : List Expr} (within : Within size env) (formed : Formed.exprs exprs) :
    Tidies size bound (Eval.values limit (fuel + 1) env exprs) PairsHoused := by
  unfold Eval.values
  split
  · simp only [Formed.exprs, Formed.expr, and_true] at formed
    refine (tidying.call within formed.1 formed.2).bind fun _ results _ housed => ?_
    split
    · refine .pure fun _ more pair member => ?_
      obtain rfl := List.mem_singleton.mp member
      exact (housed _ (List.mem_singleton_self _)).mono more
    · refine .pure fun _ more pair member => ?_
      obtain ⟨value, inside, rfl⟩ := List.mem_map.mp member
      exact (housed value inside).mono more
  · exact tidying.eachValue within formed

theorem call_succ {callee : Expr} {args : List Expr} (within : Within size env) (formed : Formed.expr callee)
    (formedArgs : Formed.exprs args) :
    Tidies size bound (Eval.call limit (fuel + 1) env callee args location) AllHoused := by
  refine (tidying.evaluate within formed).bind fun _ function more housed =>
    (tidying.values (within.mono more) formedArgs).bind fun larger received again pairs => ?_
  have applied : ∀ given, (∀ arg ∈ given, Rooted larger arg) → Tidies larger bound (do
      let results ← Eval.apply limit fuel function given location
      Eval.meet (.called (.call callee args location) function results)
      pure results) AllHoused := fun given rooted =>
    (tidying.apply (housed.1.mono again) rooted).bind fun _ results _ all =>
      Tidies.meet.bind fun _ _ next _ => .pure fun _ last value member => (all value member).mono (next.trans last)
  cases function with
  | function closure => exact applied _ (rooted_coerceArguments pairs)
  | _ =>
      refine applied _ fun arg member => ?_
      obtain ⟨pair, inside, rfl⟩ := List.mem_map.mp member
      exact (pairs pair inside).1

theorem apply_succ {function : Value} {args : List Value} (rooted : Rooted size function)
    (all : ∀ arg ∈ args, Rooted size arg) :
    Tidies size bound (Eval.apply limit (fuel + 1) function args location) AllHoused := by
  cases function with
  | function closure => exact tidying.enter rooted all
  | builtin found => exact .callBuiltin
  | _ => exact .fail

theorem enter_succ {closure : Closure} {args : List Value} (rooted : Rooted size (.function closure))
    (all : ∀ arg ∈ args, Rooted size arg) :
    Tidies size bound (Eval.enter limit (fuel + 1) closure args location) AllHoused := by
  obtain ⟨within, formed⟩ := rooted closure rfl
  have body : Formed.stmts closure.literal.body := by
    generalize closure.literal = literal at formed ⊢
    obtain ⟨signature, body, place⟩ := literal
    rw [Formed.function] at formed
    exact formed.2
  refine Tidies.depth.bind fun _ active more _ => .choice .fail (.choice .fail (.inScope (within.mono more)
    fun _ inner again inside above => ?_))
  refine (Tidies.bindParameters above fun arg member => (all arg member).mono (more.trans again)).bind
    fun _ _ one _ => (Tidies.bindResults above).bind fun _ _ two _ =>
    ((tidying.statements (inside.mono (one.trans two)) above body).inFrame).bind fun _ flow _ housed =>
    (Tidies.resultsOf housed).bind fun _ results _ given => .choice ?_ .fail
  exact Tidies.meet.bind fun _ _ next _ => .pure fun _ last value member => (given value member).mono (next.trans last)

/-! ## Statements -/

theorem statements_succ {body : List Stmt} (within : Within size env) (above : Above bound env)
    (formed : Formed.stmts body) : Tidies size bound (Eval.statements limit (fuel + 1) env body) FlowHoused := by
  cases body with
  | nil => exact .pure fun _ _ => flowHoused_of_plain nofun
  | cons first rest =>
      rw [Formed.stmts] at formed
      refine (tidying.statement within above formed.1).bind fun _ flow more housed => ?_
      cases flow with
      | normal => exact tidying.statements (within.mono more) above formed.2.2
      | _ => exact .pure fun _ last => housed.mono last

theorem block_succ {body : List Stmt} (within : Within size env) (formed : Formed.stmts body) :
    Tidies size bound (Eval.block limit (fuel + 1) env body) FlowHoused :=
  .inScope within fun _ _ _ inside above => tidying.statements inside above formed

theorem header_succ {init : Option Stmt} (within : Within size env) (above : Above bound env)
    (formed : Formed.header init) : Tidies size bound (Eval.header limit (fuel + 1) env init) Anything := by
  cases init with
  | none => exact .pure fun _ _ => trivial
  | some init =>
      rw [Formed.header] at formed
      exact (tidying.statement within above formed.1).bind fun _ _ _ _ => .pure fun _ _ => trivial

/-- The kind that the operator gives is the kind that the variable had, and the variable has it still. -/
theorem compound_succ {target : String} {op : BinaryOp} {expr : Expr} (within : Within size env)
    (arithmetic : op.isArithmetic = true) (formed : Formed.expr expr) :
    Tidies size bound (Eval.statement limit (fuel + 1) env (.compound target op expr location)) FlowHoused := by
  intro machine tidy le old
  have looks : Tidied machine.store.scopes.size machine.store
      (fun _ current => ∃ id mutable, machine.store.find? env target = some (id, ⟨current, mutable⟩))
      (Eval.lookup env target location machine) := by
    unfold Eval.lookup
    cases found : machine.store.get? env target with
    | none => exact ⟨tidy.met _, .refl _ _⟩
    | some current =>
        obtain ⟨⟨id, current, mutable⟩, known, rfl⟩ := Option.map_eq_some_iff.mp found
        exact ⟨tidy.met _, .refl _ _, id, mutable, known⟩
  rw [compound_eq]
  refine .seq old looks fun current looked tidyLooked kept found => ?_
  obtain ⟨id, mutable, known⟩ := found
  have evaluates : Tidied machine.store.scopes.size looked.store Housed (Eval.evaluate limit fuel env expr looked) :=
    tidying.evaluate (within.mono le) formed looked tidyLooked kept.size kept.size
  refine .seq old evaluates fun operand reached tidyReached keptReached _ => ?_
  let outcome := Value.binary op current (written current operand (some expr)) location
  have computes : Tidies 0 machine.store.scopes.size (Eval.ofExcept outcome) (fun _ updated => outcome = .ok updated) :=
    .ofExcept fun updated done _ => done
  have steps := computes reached tidyReached (Nat.zero_le _) (kept.size.trans keptReached.size)
  refine .seq old steps fun updated last tidyLast keptLast done => ?_
  refine .seq (Nat.le_refl _) (tidied_assign tidyLast (housed_of_scalar (binary_scalar done)) ?_)
    fun _ end_ tidyEnd _ _ => ⟨tidyEnd, .refl _ _, flowHoused_of_plain nofun⟩
  intro other value now
  obtain ⟨value, still, same, _⟩ := ((kept.trans keptReached).trans keptLast).find? (within.mono le) known
  rw [now] at still
  cases still
  exact (binary_kind arithmetic done).trans same.symm

theorem statement_succ {stmt : Stmt} (within : Within size env) (above : Above bound env) (formed : Formed.stmt stmt) :
    Tidies size bound (Eval.statement limit (fuel + 1) env stmt) FlowHoused := by
  have normal : ∀ larger, Tidies larger bound (pure Flow.normal) FlowHoused :=
    fun _ => .pure fun _ _ => flowHoused_of_plain nofun
  cases stmt with
  | declare decl =>
      obtain ⟨isConst, names, type?, values, place⟩ := decl
      rw [Formed.stmt, Formed.valueDecl] at formed
      exact (tidying.declare within above formed.2.2.1).bind fun _ _ _ _ => normal _
  | define names exprs location =>
      rw [Formed.stmt] at formed
      exact (tidying.values within formed.2.2).bind fun _ received _ housed =>
        .choice ((Tidies.defineValues above housed).bind fun _ _ _ _ => normal _) .fail
  | assign targets exprs location =>
      rw [Formed.stmt] at formed
      exact (tidying.values within formed.2.2).bind fun _ received _ housed =>
        .choice ((Tidies.storeValues housed).bind fun _ _ _ _ => normal _) .fail
  | compound target op expr location =>
      rw [Formed.stmt] at formed
      exact tidying.compound_succ within formed.2.1 formed.2.2
  | step target up location => exact step_succ
  | ifElse found =>
      rw [Formed.stmt] at formed
      exact tidying.conditional within formed
  | loop init guard post body location =>
      rw [Formed.stmt] at formed
      exact .inScope within fun _ _ _ inside above => (tidying.header inside above formed.1).bind fun _ _ more _ =>
        tidying.rounds (inside.mono more) above formed.2.1 formed.2.2.1 formed.2.2.2.2
  | switch init tag cases location =>
      rw [Formed.stmt] at formed
      exact .inScope within fun _ _ _ inside above => (tidying.header inside above formed.1).bind fun _ _ more _ =>
        tidying.switch (inside.mono more) formed.2.1 formed.2.2.1
  | «return» exprs location =>
      rw [Formed.stmt] at formed
      exact tidying.returning within formed
  | «break» location | «continue» location => exact .pure fun _ _ => flowHoused_of_plain nofun
  | block body =>
      rw [Formed.stmt] at formed
      exact tidying.block within formed
  | expression expr =>
      rw [Formed.stmt] at formed
      cases expr with
      | call callee args location =>
          rw [Formed.expr] at formed
          exact (tidying.call within formed.1 formed.2).bind fun _ _ _ _ => normal _
      | _ => exact (tidying.evaluate within formed).bind fun _ _ _ _ => normal _

theorem conditional_succ {found : IfStmt} (within : Within size env) (formed : Formed.ifStmt found) :
    Tidies size bound (Eval.conditional limit (fuel + 1) env found) FlowHoused := by
  obtain ⟨init, condition, body, orElse, place⟩ := found
  rw [Formed.ifStmt] at formed
  obtain ⟨formedInit, formedCondition, formedBody, formedElse⟩ := formed
  refine .inScope within fun _ _ _ inside above => (tidying.header inside above formedInit).bind fun _ _ one _ =>
    (tidying.condition (inside.mono one) formedCondition).bind fun _ outcome two _ =>
    .choice (tidying.block (inside.mono (one.trans two)) formedBody) ?_
  cases orElse with
  | absent => exact .pure fun _ _ => flowHoused_of_plain nofun
  | block other =>
      rw [Formed.elseBranch] at formedElse
      exact tidying.block (inside.mono (one.trans two)) formedElse
  | chain next =>
      rw [Formed.elseBranch] at formedElse
      exact tidying.conditional (inside.mono (one.trans two)) formedElse

theorem rounds_succ {guard : Option Expr} {post : Option Stmt} {body : List Stmt} (within : Within size env)
    (above : Above bound env) (formedGuard : Formed.optionalExpr guard) (formedPost : Formed.header post)
    (formedBody : Formed.stmts body) :
    Tidies size bound (Eval.rounds limit (fuel + 1) env guard post body location) FlowHoused := by
  refine (tidying.proceeds within formedGuard).bind fun _ goes one _ =>
    .choice ((tidying.block (within.mono one) formedBody).bind fun larger flow two housed => ?_)
      (.pure fun _ _ => flowHoused_of_plain nofun)
  have again : Tidies larger bound (do
      Eval.header limit fuel env post
      Eval.rounds limit fuel env guard post body location) FlowHoused :=
    (tidying.header (within.mono (one.trans two)) above formedPost).bind fun _ _ three _ =>
      tidying.rounds (within.mono ((one.trans two).trans three)) above formedGuard formedPost formedBody
  cases flow with
  | normal | «continue» => exact again
  | «break» => exact .pure fun _ _ => flowHoused_of_plain nofun
  | «return» values => exact .pure fun _ last => housed.mono last

theorem proceeds_succ {guard : Option Expr} (within : Within size env) (formed : Formed.optionalExpr guard) :
    Tidies size bound (Eval.proceeds limit (fuel + 1) env guard location) Anything := by
  cases guard with
  | none => exact .pure fun _ _ => trivial
  | some expr =>
      rw [Formed.optionalExpr] at formed
      exact tidying.condition within formed

theorem switch_succ {tag : Option Expr} {cases : List SwitchCase} (within : Within size env)
    (formedTag : Formed.optionalExpr tag) (formed : Formed.cases cases) :
    Tidies size bound (Eval.switch limit (fuel + 1) env tag cases) FlowHoused := by
  refine (tidying.tagValue within formedTag).bind fun _ tagged one _ =>
    (tidying.select (within.mono one) formed).bind fun _ selected two formedSelected => ?_
  cases chosen : selected.or (Eval.defaultCase cases) with
  | none => exact .pure fun _ _ => flowHoused_of_plain nofun
  | some found =>
      have formedBody : Formed.stmts found.body := by
        cases selected with
        | none => exact formed_default formed chosen
        | some other =>
            cases chosen
            exact formedSelected _ rfl
      refine (tidying.block (within.mono (one.trans two)) formedBody).bind fun _ flow _ housed => ?_
      cases flow with
      | «break» => exact .pure fun _ _ => flowHoused_of_plain nofun
      | _ => exact .pure fun _ last => housed.mono last

theorem tagValue_succ {tag : Option Expr} (within : Within size env) (formed : Formed.optionalExpr tag) :
    Tidies size bound (Eval.tagValue limit (fuel + 1) env tag) Anything := by
  cases tag with
  | none => exact .pure fun _ _ => trivial
  | some expr =>
      rw [Formed.optionalExpr] at formed
      exact (tidying.evaluate within formed).bind fun _ _ _ _ => .pure fun _ _ => trivial

theorem select_succ {tagged : Option (Value × Expr)} {cases : List SwitchCase} (within : Within size env)
    (formed : Formed.cases cases) : Tidies size bound (Eval.select limit (fuel + 1) env tagged cases)
      fun _ selected => ∀ found, selected = some found → Formed.stmts found.body := by
  cases cases with
  | nil => exact .pure fun _ _ => nofun
  | cons first rest =>
      obtain ⟨label, body, place⟩ := first
      rw [Formed.cases] at formed
      obtain ⟨formedLabel, formedBody, formedRest⟩ := formed
      cases label with
      | otherwise => exact tidying.select within formedRest
      | values exprs =>
          rw [Formed.caseLabel] at formedLabel
          refine (tidying.anyMatches within formedLabel.2).bind fun _ matched more _ =>
            .choice (.pure fun _ _ => ?_) (tidying.select (within.mono more) formedRest)
          rintro found ⟨⟩
          exact formedBody

theorem anyMatches_succ {tagged : Option (Value × Expr)} {exprs : List Expr} (within : Within size env)
    (formed : Formed.exprs exprs) :
    Tidies size bound (Eval.anyMatches limit (fuel + 1) env tagged location exprs) Anything := by
  cases exprs with
  | nil => exact .pure fun _ _ => trivial
  | cons expr rest =>
      rw [Formed.exprs] at formed
      exact (tidying.caseMatches within formed.1).bind fun _ matched more _ =>
        .choice (.pure fun _ _ => trivial) (tidying.anyMatches (within.mono more) formed.2)

theorem caseMatches_succ {tagged : Option (Value × Expr)} {expr : Expr} (within : Within size env)
    (formed : Formed.expr expr) :
    Tidies size bound (Eval.caseMatches limit (fuel + 1) env tagged location expr) Anything := by
  cases tagged with
  | none => exact tidying.condition within formed
  | some pair => exact (tidying.evaluate within formed).bind fun _ _ _ _ => .ofExcept fun _ _ _ => trivial

theorem returning_succ {exprs : List Expr} (within : Within size env) (formed : Formed.exprs exprs) :
    Tidies size bound (Eval.returning limit (fuel + 1) env exprs location) FlowHoused := by
  cases exprs with
  | nil =>
      refine .pure fun _ _ values same value member => ?_
      cases same
      exact absurd member List.not_mem_nil
  | cons first rest =>
      refine Tidies.frame?.bind fun _ frame more _ => (tidying.values (within.mono more) formed).bind
        fun _ received _ housed => .choice ((Tidies.returnedValues housed).bind fun _ results _ given => ?_) .fail
      refine .pure fun _ last values same value member => ?_
      cases same
      exact (given value member).mono last

theorem declare_succ {target : Env} {decl : ValueDecl} (within : Within size env) (above : Above bound target)
    (formed : Formed.exprs decl.values) :
    Tidies size bound (Eval.declare limit (fuel + 1) env target decl) Anything := by
  obtain ⟨isConst, names, type?, values, place⟩ := decl
  cases values with
  | nil =>
      cases type? with
      | none => exact .fail
      | some type =>
          refine Tidies.bindValues above fun value member => ?_
          obtain ⟨_, _, rfl⟩ := List.mem_map.mp member
          exact housed_zero type
  | cons first rest =>
      exact (tidying.values within formed).bind fun _ received _ housed =>
        .choice ((Tidies.declaredValues housed).bind fun _ _ _ all => Tidies.bindValues above all) .fail

theorem succ : Tidying limit (fuel + 1) where
  evaluate := tidying.evaluate_succ
  condition := tidying.condition_succ
  values := tidying.values_succ
  eachValue := tidying.eachValue_succ
  call := tidying.call_succ
  apply := tidying.apply_succ
  enter := tidying.enter_succ
  statements := tidying.statements_succ
  block := tidying.block_succ
  header := tidying.header_succ
  statement := tidying.statement_succ
  conditional := tidying.conditional_succ
  rounds := tidying.rounds_succ
  proceeds := tidying.proceeds_succ
  switch := tidying.switch_succ
  tagValue := tidying.tagValue_succ
  select := tidying.select_succ
  anyMatches := tidying.anyMatches_succ
  caseMatches := tidying.caseMatches_succ
  returning := tidying.returning_succ
  declare := tidying.declare_succ

end Tidying

theorem tidying (limit fuel : Nat) : Tidying limit fuel := by
  induction fuel with
  | zero => exact .zero
  | succ fuel ih => exact ih.succ

end MiniGo.Running
