import MiniGo.Proofs.Running.PlainSteps
import MiniGo.Proofs.Running.Plans

/-!
# The plans of the evaluator are sound

The steps of a plan are plain, the statements that it runs stand in those that it was given, and it calls function
values with as many arguments as they have parameters (`plan_sound`).
-/

namespace MiniGo.Running

variable {α β : Type} {env : Env} {location : Location}

/-! ## Statements inside others -/

/-- The statements that a statement is made of; those of function literals in its expressions do not count. -/
def parts : Stmt → List Stmt
  | .ifElse found => found.init.toList ++ found.body ++ branchParts found.orElse
  | .loop init _ post body _ => init.toList ++ post.toList ++ body
  | .switch init _ cases _ => init.toList ++ cases.flatMap (·.body)
  | .block body => body
  | _ => []
where
  /-- The statements of what follows a conditional. -/
  branchParts : ElseBranch → List Stmt
    | .absent => []
    | .block body => body
    | .chain next => [.ifElse next]

/-- A statement stands in code, at any depth. -/
inductive Stands (stmt : Stmt) : List Stmt → Prop
  | here {body : List Stmt} (member : stmt ∈ body) : Stands stmt body
  | inside {body : List Stmt} {outer : Stmt} (member : outer ∈ body) (deeper : Stands stmt (parts outer)) :
      Stands stmt body

theorem Stands.part {outer inner : Stmt} {body : List Stmt} (stands : Stands outer body) (part : inner ∈ parts outer) :
    Stands inner body := by
  induction stands with
  | here member => exact .inside member (.here part)
  | inside member _ ih => exact .inside member ih

theorem Stands.trans {stmt : Stmt} {body more : List Stmt} (stands : Stands stmt body)
    (all : ∀ outer ∈ body, Stands outer more) : Stands stmt more := by
  induction stands with
  | here member => exact all _ member
  | inside member _ ih => exact ih fun inner part => (all _ member).part part

/-- The statements that a function of the evaluator is given. -/
def Task.stmts : Task → List Stmt
  | .statements _ body | .block _ body => body
  | .header _ init => init.toList
  | .statement _ stmt => [stmt]
  | .conditional _ found => [.ifElse found]
  | .rounds _ _ post body _ => post.toList ++ body
  | .switch _ _ cases => cases.flatMap (·.body)
  | .returning _ exprs location => [.return exprs location]
  | _ => []

/-! ## Plans are sound -/

/-- What is known of what a function gives: a case that is selected is one of the cases. -/
def Gives : (task : Task) → task.Result → Prop
  | .select _ _ cases, selected => ∀ found, selected = some found → found ∈ cases
  | _, _ => True

/-- The steps of a plan are plain, the functions that it runs are allowed, and so are the function values that it
calls. -/
def Plan.Sound (allowed : Task → Prop) (callable : Closure → Location → Prop) {α : Type} : Plan α → Prop
  | .done _ => True
  | .step action next => Plain action ∧ ∀ value, (next value).Sound allowed callable
  | .start task next => allowed task ∧ ∀ value, Gives task value → (next value).Sound allowed callable
  | .call closure location opening next =>
      callable closure location ∧ Plain opening ∧ ∀ env flow, (next env flow).Sound allowed callable

namespace Plan.Sound

variable {allowed : Task → Prop} {callable : Closure → Location → Prop}

theorem pure {value : α} : (Pure.pure value : Plan α).Sound allowed callable := trivial

theorem act {action : Eval α} (plain : Plain action) : (Plan.act action).Sound allowed callable :=
  ⟨plain, fun _ => trivial⟩

theorem sub {task : Task} (fine : allowed task) : (Plan.sub task).Sound allowed callable :=
  ⟨fine, fun _ _ => trivial⟩

theorem bind {plan : Plan α} {next : α → Plan β} (first : plan.Sound allowed callable)
    (rest : ∀ value, (next value).Sound allowed callable) : (plan >>= next).Sound allowed callable := by
  induction plan with
  | done value => exact rest value
  | step action behind ih => exact ⟨first.1, fun value => ih value (first.2 value)⟩
  | start task behind ih => exact ⟨first.1, fun value gives => ih value (first.2 value gives)⟩
  | call closure location opening behind ih =>
      exact ⟨first.1, first.2.1, fun env flow => ih env flow (first.2.2 env flow)⟩

theorem after {task : Task} {next : task.Result → Plan β} (fine : allowed task)
    (rest : ∀ value, Gives task value → (next value).Sound allowed callable) :
    (Plan.sub task >>= next).Sound allowed callable := ⟨fine, rest⟩

theorem choice {condition : Prop} [Decidable condition] {yes no : Plan α} (one : yes.Sound allowed callable)
    (two : no.Sound allowed callable) : (if condition then yes else no).Sound allowed callable := by
  split
  · exact one
  · exact two

end Plan.Sound

/-- A function runs statements that stand in those that it is given. -/
def StandsIn (outer inner : Task) : Prop := ∀ stmt ∈ inner.stmts, Stands stmt outer.stmts

theorem StandsIn.of_nil {outer inner : Task} (none : inner.stmts = []) : StandsIn outer inner := by
  intro stmt member
  rw [none] at member
  cases member

/-- Function values are called with as many arguments as they have parameters. -/
def Callable (task : Task) (closure : Closure) (location : Location) : Prop :=
  ∃ args, task = .enter closure args location ∧ args.length = closure.literal.signature.params.length

section

variable {task : Task}

theorem sound_evaluate (expr : Expr) : (Plan.evaluate env expr).Sound (StandsIn task) (Callable task) := by
  cases expr with
  | integer _ | float _ | string _ => exact .pure
  | identifier name location =>
      refine .act (.bind .lookup? fun value? => ?_)
      split
      · exact .fail id
      · exact .pure
      · exact .fail id
  | qualified package name location => exact .act .qualified
  | binary left op right location =>
      cases op with
      | and =>
          refine .bind (.sub (.of_nil rfl)) fun first => ?_
          exact .choice (.bind (.sub (.of_nil rfl)) fun _ => .pure) .pure
      | or =>
          refine .bind (.sub (.of_nil rfl)) fun first => ?_
          exact .choice .pure (.bind (.sub (.of_nil rfl)) fun _ => .pure)
      | _ =>
          refine .bind (.sub (.of_nil rfl)) fun left => .bind (.sub (.of_nil rfl)) fun right => ?_
          exact .act (.ofExcept (shallow_binary _ _ _))
  | unary op operand location => exact .bind (.sub (.of_nil rfl)) fun _ => .act (.ofExcept (shallow_unary _ _))
  | call callee args location =>
      refine .bind (.sub (.of_nil rfl)) fun results => ?_
      split
      · exact .pure
      · exact .act (.fail id)
      · exact .act (.fail id)
  | function literal => exact .act (.bind .literalName fun _ => .makeClosure)

theorem sound_values (exprs : List Expr) : (Plan.values env exprs).Sound (StandsIn task) (Callable task) := by
  unfold Plan.values
  split
  · refine .bind (.sub (.of_nil rfl)) fun results => ?_
    split <;> exact .pure
  · exact .sub (.of_nil rfl)

theorem sound_declare (target : Env) (decl : ValueDecl) :
    (Plan.declare env target decl).Sound (StandsIn task) (Callable task) := by
  unfold Plan.declare
  split
  · split
    · exact .act .bindValues
    · exact .act (.fail id)
  · refine .bind (.sub (.of_nil rfl)) fun received => .choice ?_ (.act (.fail id))
    exact .bind (.act .declaredValues) fun _ => .act .bindValues

theorem sound_returning (exprs : List Expr) : (Plan.returning env exprs location).Sound (StandsIn task) (Callable task) := by
  unfold Plan.returning
  split
  · exact .pure
  · refine .bind (.act .frame?) fun frame? => .bind (.sub (.of_nil rfl)) fun received => .choice ?_ (.act (.fail id))
    exact .bind (.act .returnedValues) fun _ => .pure

end

theorem sound_enter (closure : Closure) (args : List Value) (location : Location) :
    (Plan.enter closure args location).Sound (StandsIn (.enter closure args location))
      (Callable (.enter closure args location)) := by
  unfold Plan.enter
  dsimp only
  split
  · exact .act (.fail id)
  · rename_i count
    refine ⟨⟨args, rfl, not_not.mp count⟩, ?_, fun env flow => ?_⟩
    · exact .bind .openScope fun _ => .bind .bindParameters fun _ => .bind .bindResults fun _ => .pure
    · refine .bind (.act .resultsOf) fun results => .choice ?_ (.act (.fail id))
      exact .bind (.act .meet) fun _ => .pure

theorem sound_statement (stmt : Stmt) :
    (Plan.statement env stmt).Sound (StandsIn (.statement env stmt)) (Callable (.statement env stmt)) := by
  have part {inner : Stmt} (member : inner ∈ parts stmt) : Stands inner [stmt] :=
    .inside (List.mem_singleton.mpr rfl) (.here member)
  cases stmt with
  | declare decl => exact .bind (.sub (.of_nil rfl)) fun _ => .pure
  | define names exprs location =>
      refine .bind (.sub (.of_nil rfl)) fun received => .choice ?_ (.act (.fail id))
      exact .bind (.act .defineValues) fun _ => .pure
  | assign names exprs location =>
      refine .bind (.sub (.of_nil rfl)) fun received => .choice ?_ (.act (.fail id))
      exact .bind (.act .storeValues) fun _ => .pure
  | compound name op expr location =>
      refine .bind (.act .lookup) fun current => .bind (.sub (.of_nil rfl)) fun operand => ?_
      exact .bind (.act (.ofExcept (shallow_binary _ _ _))) fun _ => .bind (.act .assign) fun _ => .pure
  | step name up location =>
      exact .bind (.act .lookup) fun _ => .bind (.act .stepped) fun _ => .bind (.act .assign) fun _ => .pure
  | ifElse found => exact .sub fun stmt member => .here member
  | loop init guard post body location =>
      refine .bind (.act .openScope) fun scope => .bind (.sub fun stmt member => part ?_) fun _ =>
        .sub fun stmt member => part ?_
      · exact List.mem_append_left _ (List.mem_append_left _ member)
      · rw [parts, List.append_assoc]
        exact List.mem_append_right _ member
  | «switch» init tag cases location =>
      refine .bind (.act .openScope) fun scope => .bind (.sub fun stmt member => part ?_) fun _ =>
        .sub fun stmt member => part ?_
      · exact List.mem_append_left _ member
      · exact List.mem_append_right _ member
  | «return» exprs location => exact .sub fun stmt member => .here member
  | «break» location | «continue» location => exact .pure
  | block body => exact .sub fun stmt member => part member
  | expression expr =>
      cases expr <;> exact .bind (.sub (.of_nil rfl)) fun _ => .pure

theorem sound_conditional (found : IfStmt) :
    (plan (.conditional env found)).Sound (StandsIn (.conditional env found)) (Callable (.conditional env found)) := by
  have part {inner : Stmt} (member : inner ∈ parts (.ifElse found)) : Stands inner [.ifElse found] :=
    .inside (List.mem_singleton.mpr rfl) (.here member)
  refine .bind (.act .openScope) fun scope => .bind (.sub fun stmt member => part ?_) fun _ =>
    .bind (.sub (.of_nil rfl)) fun truth => .choice (.sub fun stmt member => part ?_) ?_
  · exact List.mem_append_left _ (List.mem_append_left _ member)
  · exact List.mem_append_left _ (List.mem_append_right _ member)
  · have branch {inner : Stmt} (member : inner ∈ parts.branchParts found.orElse) : Stands inner [.ifElse found] :=
      part (List.mem_append_right _ member)
    split
    · exact .pure
    · rename_i body same
      exact .sub fun stmt member => branch (same ▸ member)
    · rename_i next same
      exact .sub fun stmt member => branch (same ▸ member)

theorem sound_rounds (guard : Option Expr) (post : Option Stmt) (body : List Stmt) (location : Location) :
    (plan (.rounds scope guard post body location)).Sound (StandsIn (.rounds scope guard post body location))
      (Callable (.rounds scope guard post body location)) := by
  refine .bind (.sub (.of_nil rfl)) fun more => .choice (.bind (.sub fun stmt member => .here ?_) fun flow => ?_) .pure
  · exact List.mem_append_right _ member
  · split
    · exact .pure
    · exact .pure
    · refine .bind (.sub fun stmt member => .here ?_) fun _ => .sub fun stmt member => .here member
      exact List.mem_append_left _ member

/-- The case that is run is one of the cases, since what is selected is. -/
theorem sound_switch (tag : Option Expr) (cases : List SwitchCase) :
    (plan (.switch scope tag cases)).Sound (StandsIn (.switch scope tag cases)) (Callable (.switch scope tag cases)) := by
  refine .bind (.sub (.of_nil rfl)) fun tagged => .after (.of_nil rfl) fun selected gives => ?_
  split
  · exact .pure
  · rename_i found chosen
    have member := Eval.mem_of_chosen gives chosen
    refine .bind (.sub fun stmt inner => .here (List.mem_flatMap.mpr ⟨found, member, inner⟩)) fun flow => ?_
    split <;> exact .pure

theorem plan_sound (task : Task) : (plan task).Sound (StandsIn task) (Callable task) := by
  cases task with
  | evaluate env expr => exact sound_evaluate expr
  | condition env expr location => exact .bind (.sub (.of_nil rfl)) fun _ => .act (.ofExcept (shallow_asBool _))
  | values env exprs => exact sound_values exprs
  | eachValue env exprs =>
      cases exprs with
      | nil => exact .pure
      | cons expr rest => exact .bind (.sub (.of_nil rfl)) fun _ => .bind (.sub (.of_nil rfl)) fun _ => .pure
  | call env callee args location =>
      refine .bind (.sub (.of_nil rfl)) fun function => .bind (.sub (.of_nil rfl)) fun received => ?_
      exact .bind (.sub (.of_nil rfl)) fun results => .bind (.act .meet) fun _ => .pure
  | apply function args location =>
      cases function with
      | function closure => exact .sub (.of_nil rfl)
      | builtin found => exact .act .callBuiltin
      | _ => exact .act (.fail id)
  | enter closure args location => exact sound_enter closure args location
  | statements env body =>
      cases body with
      | nil => exact .pure
      | cons first rest =>
          refine .bind (.sub fun stmt member => .here ?_) fun flow => ?_
          · rw [List.mem_singleton.mp member]
            exact List.mem_cons_self
          · split
            · exact .sub fun stmt member => .here (List.mem_cons_of_mem first member)
            · exact .pure
  | block env body => exact .bind (.act .openScope) fun _ => .sub fun stmt member => .here member
  | header env init =>
      cases init with
      | none => exact .pure
      | some init => exact .bind (.sub fun stmt member => .here member) fun _ => .pure
  | statement env stmt => exact sound_statement stmt
  | conditional env found => exact sound_conditional found
  | rounds scope guard post body location => exact sound_rounds guard post body location
  | proceeds scope guard location =>
      cases guard with
      | none => exact .pure
      | some expr => exact .sub (.of_nil rfl)
  | «switch» scope tag cases => exact sound_switch tag cases
  | tagValue scope tag =>
      cases tag with
      | none => exact .pure
      | some expr => exact .bind (.sub (.of_nil rfl)) fun _ => .pure
  | select scope tagged cases =>
      cases cases with
      | nil => exact .pure
      | cons first rest =>
          unfold plan
          dsimp only
          split
          · exact .sub (.of_nil rfl)
          · exact .bind (.sub (.of_nil rfl)) fun matched => .choice .pure (.sub (.of_nil rfl))
  | anyMatches scope tagged location exprs =>
      cases exprs with
      | nil => exact .pure
      | cons expr rest => exact .bind (.sub (.of_nil rfl)) fun _ => .choice .pure (.sub (.of_nil rfl))
  | caseMatches scope tagged location expr =>
      cases tagged with
      | none => exact .sub (.of_nil rfl)
      | some tag => exact .bind (.sub (.of_nil rfl)) fun _ => .act (.ofExcept (shallow_equals _ _))
  | returning env exprs location => exact sound_returning exprs
  | declare env target decl => exact sound_declare target decl

end MiniGo.Running
