import MiniGo.Proofs.Running.Twins

/-!
# Code does not see the numbers of scopes

Every function of the evaluator does the same on twins (`echoing`). A pairing that has a counterpart for every
scope says that nothing depends on the past of a machine.
-/

namespace MiniGo.Running

variable {limit fuel : Nat} {pairs : Pairing} {env : Env} {location : Location}

/-- Tags with their expressions, as `Twin`. -/
abbrev TagTwin (pairs : Pairing) : Option (Value × Expr) → Option (Value × Expr) → Prop :=
  Option.Rel fun one other => Twin pairs one.1 other.1 ∧ one.2 = other.2

/-- Every function of the evaluator does the same on twins, run with a bound on its length. Those that may declare
names run in a scope that has a counterpart. -/
structure Echoing (pairs : Pairing) (limit fuel : Nat) : Prop where
  evaluate : ∀ {env expr}, Echoes pairs (Twin pairs) (Eval.evaluate limit fuel env expr)
    (Eval.evaluate limit fuel (env.filterMap pairs) expr)
  condition : ∀ {env expr location}, Echoes pairs Eq (Eval.condition limit fuel env expr location)
    (Eval.condition limit fuel (env.filterMap pairs) expr location)
  values : ∀ {env exprs}, Echoes pairs (PairTwins pairs) (Eval.values limit fuel env exprs)
    (Eval.values limit fuel (env.filterMap pairs) exprs)
  eachValue : ∀ {env exprs}, Echoes pairs (PairTwins pairs) (Eval.eachValue limit fuel env exprs)
    (Eval.eachValue limit fuel (env.filterMap pairs) exprs)
  call : ∀ {env callee args location}, Echoes pairs (Twins pairs) (Eval.call limit fuel env callee args location)
    (Eval.call limit fuel (env.filterMap pairs) callee args location)
  apply : ∀ {function other args others location}, Twin pairs function other → Twins pairs args others →
    Echoes pairs (Twins pairs) (Eval.apply limit fuel function args location)
      (Eval.apply limit fuel other others location)
  enter : ∀ {closure args others location}, Twins pairs args others →
    Echoes pairs (Twins pairs) (Eval.enter limit fuel closure args location)
      (Eval.enter limit fuel { closure with env := closure.env.filterMap pairs } others location)
  statements : ∀ {env body}, Opened pairs env → Echoes pairs (FlowTwin pairs) (Eval.statements limit fuel env body)
    (Eval.statements limit fuel (env.filterMap pairs) body)
  block : ∀ {env body}, Echoes pairs (FlowTwin pairs) (Eval.block limit fuel env body)
    (Eval.block limit fuel (env.filterMap pairs) body)
  header : ∀ {env init}, Opened pairs env → Echoes pairs Eq (Eval.header limit fuel env init)
    (Eval.header limit fuel (env.filterMap pairs) init)
  statement : ∀ {env stmt}, Opened pairs env → Echoes pairs (FlowTwin pairs) (Eval.statement limit fuel env stmt)
    (Eval.statement limit fuel (env.filterMap pairs) stmt)
  conditional : ∀ {env found}, Echoes pairs (FlowTwin pairs) (Eval.conditional limit fuel env found)
    (Eval.conditional limit fuel (env.filterMap pairs) found)
  rounds : ∀ {env guard post body location}, Opened pairs env →
    Echoes pairs (FlowTwin pairs) (Eval.rounds limit fuel env guard post body location)
      (Eval.rounds limit fuel (env.filterMap pairs) guard post body location)
  proceeds : ∀ {env guard location}, Echoes pairs Eq (Eval.proceeds limit fuel env guard location)
    (Eval.proceeds limit fuel (env.filterMap pairs) guard location)
  switch : ∀ {env tag cases}, Echoes pairs (FlowTwin pairs) (Eval.switch limit fuel env tag cases)
    (Eval.switch limit fuel (env.filterMap pairs) tag cases)
  tagValue : ∀ {env tag}, Echoes pairs (TagTwin pairs) (Eval.tagValue limit fuel env tag)
    (Eval.tagValue limit fuel (env.filterMap pairs) tag)
  select : ∀ {env tagged other cases}, TagTwin pairs tagged other →
    Echoes pairs Eq (Eval.select limit fuel env tagged cases) (Eval.select limit fuel (env.filterMap pairs) other cases)
  anyMatches : ∀ {env tagged other location exprs}, TagTwin pairs tagged other →
    Echoes pairs Eq (Eval.anyMatches limit fuel env tagged location exprs)
      (Eval.anyMatches limit fuel (env.filterMap pairs) other location exprs)
  caseMatches : ∀ {env tagged other location expr}, TagTwin pairs tagged other →
    Echoes pairs Eq (Eval.caseMatches limit fuel env tagged location expr)
      (Eval.caseMatches limit fuel (env.filterMap pairs) other location expr)
  returning : ∀ {env exprs location}, Echoes pairs (FlowTwin pairs) (Eval.returning limit fuel env exprs location)
    (Eval.returning limit fuel (env.filterMap pairs) exprs location)
  declare : ∀ {env target decl}, Opened pairs target → Echoes pairs Eq (Eval.declare limit fuel env target decl)
    (Eval.declare limit fuel (env.filterMap pairs) (target.filterMap pairs) decl)

namespace Echoing

open Echoes

theorem zero : Echoing pairs limit 0 where
  evaluate := exhausted
  condition := exhausted
  values := exhausted
  eachValue := exhausted
  call := exhausted
  apply _ _ := exhausted
  enter _ := exhausted
  statements _ := exhausted
  block := exhausted
  header _ := exhausted
  statement _ := exhausted
  conditional := exhausted
  rounds _ := exhausted
  proceeds := exhausted
  switch := exhausted
  tagValue := exhausted
  select _ := exhausted
  anyMatches _ := exhausted
  caseMatches _ := exhausted
  returning := exhausted
  declare _ := exhausted

variable (echoing : Echoing pairs limit fuel)
include echoing

/-! ## Expressions -/

omit echoing in
theorem identifier {name : String} : Echoes pairs (Twin pairs) (Eval.evaluate limit (fuel + 1) env (.identifier name location))
    (Eval.evaluate limit (fuel + 1) (env.filterMap pairs) (.identifier name location)) := by
  refine lookup?.bind fun one other found => ?_
  cases found with
  | none => exact fail
  | some twin =>
      cases twin with
      | function identity name literal env => exact pure (.function identity name literal env)
      | package paired => exact fail
      | plain noFunction noPackage =>
          rename_i value
          cases value with
          | package ref => exact absurd rfl (noPackage ref)
          | _ => exact pure (.plain noFunction noPackage)

theorem binary_succ {op : BinaryOp} {left right : Expr} :
    Echoes pairs (Twin pairs) (Eval.evaluate limit (fuel + 1) env (.binary left op right location))
      (Eval.evaluate limit (fuel + 1) (env.filterMap pairs) (.binary left op right location)) := by
  have truth : ∀ b, Echoes pairs (Twin pairs) (Pure.pure (.bool b)) (Pure.pure (.bool b)) := fun b => pure (.bool b)
  -- The right operand, where a logical operator comes to it.
  have second : Echoes pairs (Twin pairs) (do
      let outcome ← Eval.condition limit fuel env right location
      Pure.pure (.bool outcome)) (do
      let outcome ← Eval.condition limit fuel (env.filterMap pairs) right location
      Pure.pure (.bool outcome)) := by
    refine echoing.condition.bind fun one other same => ?_
    cases same
    exact truth one
  have operation : Echoes pairs (Twin pairs) (do
      let leftValue ← Eval.evaluate limit fuel env left
      let rightValue ← Eval.evaluate limit fuel env right
      let pair := Value.unify leftValue left rightValue right
      Eval.ofExcept (Value.binary op pair.1 pair.2 location)) (do
      let leftValue ← Eval.evaluate limit fuel (env.filterMap pairs) left
      let rightValue ← Eval.evaluate limit fuel (env.filterMap pairs) right
      let pair := Value.unify leftValue left rightValue right
      Eval.ofExcept (Value.binary op pair.1 pair.2 location)) := by
    refine echoing.evaluate.bind fun one _ twinOne => echoing.evaluate.bind fun two _ twinTwo => ?_
    obtain ⟨first, second⟩ := twinOne.unify twinTwo left right
    dsimp only
    rw [first.binary second op location]
    exact computed
  cases op with
  | and =>
      refine echoing.condition.bind fun one other same => ?_
      cases same
      exact choice second (truth false)
  | or =>
      refine echoing.condition.bind fun one other same => ?_
      cases same
      exact choice (truth true) second
  | _ => exact operation

theorem evaluate_succ {expr : Expr} : Echoes pairs (Twin pairs) (Eval.evaluate limit (fuel + 1) env expr)
    (Eval.evaluate limit (fuel + 1) (env.filterMap pairs) expr) := by
  cases expr with
  | integer value => exact pure (.int value)
  | float value => exact pure (.float value)
  | string value => exact pure (.string value)
  | identifier name location => exact identifier
  | qualified package name location => exact qualified
  | unary op operand location =>
      refine echoing.evaluate.bind fun value other twin => ?_
      rw [twin.unary op location]
      exact ofExcept fun value done => .scalar (unary_scalar done)
  | call callee args location =>
      refine echoing.call.bind fun results others twins => ?_
      cases twins with
      | nil => exact fail
      | cons first rest =>
          cases rest with
          | nil => exact pure first
          | cons second rest =>
              -- The error tells how many results there are, and twins come in equal number.
              have count := rest.length_eq
              dsimp only [List.length_cons]
              rw [count]
              exact fail
  | function literal =>
      refine literalName.bind fun name other same => ?_
      cases same
      exact makeClosure
  | binary left op right location => exact echoing.binary_succ

theorem condition_succ {expr : Expr} : Echoes pairs Eq (Eval.condition limit (fuel + 1) env expr location)
    (Eval.condition limit (fuel + 1) (env.filterMap pairs) expr location) := by
  refine echoing.evaluate.bind fun value other twin => ?_
  rw [twin.asBool]
  exact ofExcept fun _ _ => rfl

theorem eachValue_succ {exprs : List Expr} : Echoes pairs (PairTwins pairs) (Eval.eachValue limit (fuel + 1) env exprs)
    (Eval.eachValue limit (fuel + 1) (env.filterMap pairs) exprs) := by
  cases exprs with
  | nil => exact pure .nil
  | cons expr rest =>
      exact echoing.evaluate.bind fun _ _ twin => echoing.eachValue.bind fun _ _ others => pure (.cons ⟨twin, rfl⟩ others)

theorem values_succ {exprs : List Expr} : Echoes pairs (PairTwins pairs) (Eval.values limit (fuel + 1) env exprs)
    (Eval.values limit (fuel + 1) (env.filterMap pairs) exprs) := by
  have spread : ∀ {results others : List Value}, Twins pairs results others →
      PairTwins pairs (results.map fun value => (value, none)) (others.map fun value => (value, none)) := by
    intro results others twins
    induction twins with
    | nil => exact .nil
    | cons first _ ih => exact .cons ⟨first, rfl⟩ ih
  unfold Eval.values
  split
  · refine echoing.call.bind fun results others twins => ?_
    cases twins with
    | nil => exact pure .nil
    | cons first rest =>
        cases rest with
        | nil => exact pure (.cons ⟨first, rfl⟩ .nil)
        | cons second rest => exact pure (spread (.cons first (.cons second rest)))
  · exact echoing.eachValue

theorem call_succ {callee : Expr} {args : List Expr} :
    Echoes pairs (Twins pairs) (Eval.call limit (fuel + 1) env callee args location)
      (Eval.call limit (fuel + 1) (env.filterMap pairs) callee args location) := by
  refine echoing.evaluate.bind fun function other twin => echoing.values.bind fun received others twins => ?_
  have applied : ∀ given given', Twins pairs given given' → Echoes pairs (Twins pairs) (do
      let results ← Eval.apply limit fuel function given location
      Eval.meet (.called (.call callee args location) function results)
      Pure.pure results) (do
      let results ← Eval.apply limit fuel other given' location
      Eval.meet (.called (.call callee args location) other results)
      Pure.pure results) := fun given given' both =>
    (echoing.apply twin both).bind fun _ _ results => meet.bind fun _ _ _ => pure results
  cases twin with
  | function identity name literal env => exact applied _ _ (twins.coerceArguments _)
  | package paired => exact applied _ _ twins.values
  | plain noFunction noPackage =>
      cases function with
      | function closure => exact absurd rfl (noFunction closure)
      | _ => exact applied _ _ twins.values

theorem apply_succ {function other : Value} {args others : List Value} (twin : Twin pairs function other)
    (twins : Twins pairs args others) : Echoes pairs (Twins pairs) (Eval.apply limit (fuel + 1) function args location)
      (Eval.apply limit (fuel + 1) other others location) := by
  cases twin with
  | function identity name literal env => exact echoing.enter twins
  | package paired => exact fail
  | plain noFunction noPackage =>
      cases function with
      | function closure => exact absurd rfl (noFunction closure)
      | builtin found => exact callBuiltin twins
      | _ => exact fail

theorem enter_succ {closure : Closure} {args others : List Value} (twins : Twins pairs args others) :
    Echoes pairs (Twins pairs) (Eval.enter limit (fuel + 1) closure args location)
      (Eval.enter limit (fuel + 1) { closure with env := closure.env.filterMap pairs } others location) := by
  refine depth.bind fun active other same => ?_
  cases same
  dsimp only
  rw [twins.length_eq]
  refine choice fail (choice fail (inScope fun inner opened => (bindParameters opened twins).bind fun _ _ _ =>
    (bindResults opened).bind fun _ _ _ => (echoing.statements opened).inFrame.bind fun _ _ twinFlow =>
    (resultsOf opened twinFlow).bind fun results _ given => ?_))
  rw [given.length_eq]
  exact choice (meet.bind fun _ _ _ => pure given) fail

/-! ## Statements -/

theorem statements_succ {body : List Stmt} (opened : Opened pairs env) :
    Echoes pairs (FlowTwin pairs) (Eval.statements limit (fuel + 1) env body)
      (Eval.statements limit (fuel + 1) (env.filterMap pairs) body) := by
  cases body with
  | nil => exact pure .normal
  | cons first rest =>
      refine (echoing.statement opened).bind fun flow other twin => ?_
      cases twin with
      | normal => exact echoing.statements opened
      | «break» => exact pure .break
      | «continue» => exact pure .continue
      | «return» twins => exact pure (.return twins)

theorem block_succ {body : List Stmt} : Echoes pairs (FlowTwin pairs) (Eval.block limit (fuel + 1) env body)
    (Eval.block limit (fuel + 1) (env.filterMap pairs) body) := inScope fun _ opened => echoing.statements opened

theorem header_succ {init : Option Stmt} (opened : Opened pairs env) :
    Echoes pairs Eq (Eval.header limit (fuel + 1) env init)
      (Eval.header limit (fuel + 1) (env.filterMap pairs) init) := by
  cases init with
  | none => exact pure rfl
  | some init => exact (echoing.statement opened).bind fun _ _ _ => pure rfl

theorem statement_succ {stmt : Stmt} (opened : Opened pairs env) :
    Echoes pairs (FlowTwin pairs) (Eval.statement limit (fuel + 1) env stmt)
      (Eval.statement limit (fuel + 1) (env.filterMap pairs) stmt) := by
  cases stmt with
  | declare decl => exact (echoing.declare opened).bind fun _ _ _ => pure .normal
  | define names exprs location =>
      refine echoing.values.bind fun received _ twins => ?_
      rw [twins.length_eq]
      exact choice ((defineValues opened twins).bind fun _ _ _ => pure .normal) fail
  | assign targets exprs location =>
      refine echoing.values.bind fun received _ twins => ?_
      rw [twins.length_eq]
      exact choice ((storeValues twins).bind fun _ _ _ => pure .normal) fail
  | compound target op expr location =>
      rw [compound_eq, compound_eq]
      refine lookup.bind fun current _ twinCurrent => echoing.evaluate.bind fun operand _ twinOperand => ?_
      rw [twinCurrent.binary (twinCurrent.written twinOperand _) op location]
      exact computed.bind fun _ _ twin => (assign twin).bind fun _ _ _ => pure .normal
  | step target up location =>
      exact lookup.bind fun current _ twinCurrent => (stepped twinCurrent).bind fun _ _ twin =>
        (assign twin).bind fun _ _ _ => pure .normal
  | ifElse found => exact echoing.conditional
  | loop init guard post body location =>
      exact inScope fun _ inside => (echoing.header inside).bind fun _ _ _ => echoing.rounds inside
  | switch init tag cases location =>
      exact inScope fun _ inside => (echoing.header inside).bind fun _ _ _ => echoing.switch
  | «return» exprs location => exact echoing.returning
  | «break» location => exact pure .break
  | «continue» location => exact pure .continue
  | block body => exact echoing.block
  | expression expr =>
      cases expr with
      | call callee args location => exact echoing.call.bind fun _ _ _ => pure .normal
      | _ => exact echoing.evaluate.bind fun _ _ _ => pure .normal

theorem conditional_succ {found : IfStmt} : Echoes pairs (FlowTwin pairs) (Eval.conditional limit (fuel + 1) env found)
    (Eval.conditional limit (fuel + 1) (env.filterMap pairs) found) := by
  refine inScope fun inner opened => (echoing.header opened).bind fun _ _ _ =>
    echoing.condition.bind fun outcome _ same => ?_
  cases same
  refine choice echoing.block ?_
  cases found.orElse with
  | absent => exact pure .normal
  | block other => exact echoing.block
  | chain next => exact echoing.conditional

theorem rounds_succ {guard : Option Expr} {post : Option Stmt} {body : List Stmt} (opened : Opened pairs env) :
    Echoes pairs (FlowTwin pairs) (Eval.rounds limit (fuel + 1) env guard post body location)
      (Eval.rounds limit (fuel + 1) (env.filterMap pairs) guard post body location) := by
  refine echoing.proceeds.bind fun goes _ same => ?_
  cases same
  refine choice (echoing.block.bind fun flow _ twin => ?_) (pure .normal)
  have again : Echoes pairs (FlowTwin pairs) (do
      Eval.header limit fuel env post
      Eval.rounds limit fuel env guard post body location) (do
      Eval.header limit fuel (env.filterMap pairs) post
      Eval.rounds limit fuel (env.filterMap pairs) guard post body location) :=
    (echoing.header opened).bind fun _ _ _ => echoing.rounds opened
  cases twin with
  | normal | «continue» => exact again
  | «break» => exact pure .normal
  | «return» twins => exact pure (.return twins)

theorem proceeds_succ {guard : Option Expr} : Echoes pairs Eq (Eval.proceeds limit (fuel + 1) env guard location)
    (Eval.proceeds limit (fuel + 1) (env.filterMap pairs) guard location) := by
  cases guard with
  | none => exact pure rfl
  | some expr => exact echoing.condition

theorem switch_succ {tag : Option Expr} {cases : List SwitchCase} :
    Echoes pairs (FlowTwin pairs) (Eval.switch limit (fuel + 1) env tag cases)
      (Eval.switch limit (fuel + 1) (env.filterMap pairs) tag cases) := by
  refine echoing.tagValue.bind fun tagged _ twinTag => (echoing.select twinTag).bind fun selected _ same => ?_
  cases same
  cases selected.or (Eval.defaultCase cases) with
  | none => exact pure .normal
  | some found =>
      refine echoing.block.bind fun flow _ twin => ?_
      cases twin with
      | normal | «break» => exact pure .normal
      | «continue» => exact pure .continue
      | «return» twins => exact pure (.return twins)

theorem tagValue_succ {tag : Option Expr} : Echoes pairs (TagTwin pairs) (Eval.tagValue limit (fuel + 1) env tag)
    (Eval.tagValue limit (fuel + 1) (env.filterMap pairs) tag) := by
  cases tag with
  | none => exact pure .none
  | some expr => exact echoing.evaluate.bind fun _ _ twin => pure (.some ⟨twin, rfl⟩)

theorem select_succ {tagged other : Option (Value × Expr)} {cases : List SwitchCase} (twin : TagTwin pairs tagged other) :
    Echoes pairs Eq (Eval.select limit (fuel + 1) env tagged cases)
      (Eval.select limit (fuel + 1) (env.filterMap pairs) other cases) := by
  cases cases with
  | nil => exact pure rfl
  | cons first rest =>
      obtain ⟨label, body, place⟩ := first
      cases label with
      | otherwise => exact echoing.select twin
      | values exprs =>
          refine (echoing.anyMatches twin).bind fun matched _ same => ?_
          cases same
          exact choice (pure rfl) (echoing.select twin)

theorem anyMatches_succ {tagged other : Option (Value × Expr)} {exprs : List Expr} (twin : TagTwin pairs tagged other) :
    Echoes pairs Eq (Eval.anyMatches limit (fuel + 1) env tagged location exprs)
      (Eval.anyMatches limit (fuel + 1) (env.filterMap pairs) other location exprs) := by
  cases exprs with
  | nil => exact pure rfl
  | cons expr rest =>
      refine (echoing.caseMatches twin).bind fun matched _ same => ?_
      cases same
      exact choice (pure rfl) (echoing.anyMatches twin)

theorem caseMatches_succ {tagged other : Option (Value × Expr)} {expr : Expr} (twin : TagTwin pairs tagged other) :
    Echoes pairs Eq (Eval.caseMatches limit (fuel + 1) env tagged location expr)
      (Eval.caseMatches limit (fuel + 1) (env.filterMap pairs) other location expr) := by
  cases twin with
  | none => exact echoing.condition
  | @some tag other both =>
      obtain ⟨tag, source⟩ := tag
      obtain ⟨other, _⟩ := other
      obtain ⟨twinTag, rfl⟩ := both
      refine echoing.evaluate.bind fun candidate _ twinCandidate => ?_
      obtain ⟨one, two⟩ := twinTag.unify twinCandidate source expr
      dsimp only
      rw [one.equals two]
      exact ofExcept fun _ _ => rfl

theorem returning_succ {exprs : List Expr} :
    Echoes pairs (FlowTwin pairs) (Eval.returning limit (fuel + 1) env exprs location)
      (Eval.returning limit (fuel + 1) (env.filterMap pairs) exprs location) := by
  cases exprs with
  | nil => exact pure (.return .nil)
  | cons first rest =>
      refine frame?.bind fun frame _ same => echoing.values.bind fun received _ twins => ?_
      cases same
      rw [twins.length_eq]
      exact choice ((returnedValues twins).bind fun _ _ results => pure (.return results)) fail

theorem declare_succ {target : Env} {decl : ValueDecl} (opened : Opened pairs target) :
    Echoes pairs Eq (Eval.declare limit (fuel + 1) env target decl)
      (Eval.declare limit (fuel + 1) (env.filterMap pairs) (target.filterMap pairs) decl) := by
  obtain ⟨isConst, names, type?, exprs, location⟩ := decl
  cases exprs with
  | nil =>
      cases type? with
      | none => exact fail
      | some type =>
          have zeros : Twins pairs (names.map fun _ => Value.zero type) (names.map fun _ => .zero type) :=
            List.forall₂_map_left_iff.mpr (List.forall₂_map_right_iff.mpr (List.forall₂_same.mpr fun _ _ => .zero type))
          exact bindValues opened zeros
  | cons first rest =>
      refine echoing.values.bind fun received _ twins => ?_
      rw [twins.length_eq]
      exact choice ((declaredValues twins).bind fun _ _ initial => bindValues opened initial) fail

theorem succ : Echoing pairs limit (fuel + 1) where
  evaluate := echoing.evaluate_succ
  condition := echoing.condition_succ
  values := echoing.values_succ
  eachValue := echoing.eachValue_succ
  call := echoing.call_succ
  apply := echoing.apply_succ
  enter := echoing.enter_succ
  statements := echoing.statements_succ
  block := echoing.block_succ
  header := echoing.header_succ
  statement := echoing.statement_succ
  conditional := echoing.conditional_succ
  rounds := echoing.rounds_succ
  proceeds := echoing.proceeds_succ
  switch := echoing.switch_succ
  tagValue := echoing.tagValue_succ
  select := echoing.select_succ
  anyMatches := echoing.anyMatches_succ
  caseMatches := echoing.caseMatches_succ
  returning := echoing.returning_succ
  declare := echoing.declare_succ

end Echoing

theorem echoing (pairs : Pairing) (limit fuel : Nat) : Echoing pairs limit fuel := by
  induction fuel with
  | zero => exact .zero
  | succ fuel ih => exact ih.succ

end MiniGo.Running
