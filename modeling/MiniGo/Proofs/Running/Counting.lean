import MiniGo.Proofs.Running.Balance

/-!
# Running code in which values were counted

`Counting` says of every function of the evaluator that it keeps accounts of numbers of values, as `Sound`
does of names. A statement leaves the statements around it only as the checker allows: the end of a
terminating statement is not reached, and what a function returns are as many values as it has results.
-/

namespace MiniGo.Running

open Lexical

/-- A way to leave statements that the checker allows: their end is reached only if they are not
`terminating`, a `break` leaves them only if they have one, and a `return` gives as many values as the
function has results, or none if these have names. -/
def Leaves (counts : Counts) (body : Check.Body) (breaks terminating : Bool) : Flow → Prop
  | .normal => terminating = false
  | .break => body.inBreakable = true ∧ breaks = true
  | .continue => body.inLoop = true
  | .return values => AllHaveCounts counts values ∧
      (values.length = body.results ∨ (values = [] ∧ body.namedResults = true))

/-- Some expressions gave values, as many as are wanted; else a call that stands alone was miscounted. -/
def Received (counts : Counts) (wanted : Nat → Prop) (received : List (Value × Option Expr))
    (machine : Machine) : Prop :=
  PairsHaveCounts counts received ∧ (wanted received.length ∨ Miscounted counts machine received.length)

/-- Code in which values were counted keeps accounts, run with a bound on its length. -/
structure Counting (counts : Counts) (limit fuel : Nat) : Prop where
  evaluate : ∀ {calls env expr}, Counted.expr counts expr → Single counts expr →
    Balances counts calls (Eval.evaluate limit fuel env expr) fun value _ => HasCounts counts value
  condition : ∀ {calls env expr location}, Counted.expr counts expr → Single counts expr →
    Balances counts calls (Eval.condition limit fuel env expr location) fun _ _ => True
  values : ∀ {calls env exprs} {wanted : Nat → Prop}, Counted.exprs counts exprs → Gives counts wanted exprs →
    Balances counts calls (Eval.values limit fuel env exprs) (Received counts wanted)
  eachValue : ∀ {calls env exprs}, Counted.exprs counts exprs → (∀ expr ∈ exprs, Single counts expr) →
    Balances counts calls (Eval.eachValue limit fuel env exprs) fun received _ =>
      PairsHaveCounts counts received ∧ received.length = exprs.length
  call : ∀ {calls env callee args location}, Counted.expr counts (.call callee args location) →
    Balances counts calls (Eval.call limit fuel env callee args location) fun results machine =>
      AllHaveCounts counts results ∧ ∃ function,
        machine.past machine.store (.called (.call callee args location) function results)
  apply : ∀ {calls function args location}, HasCounts counts function → AllHaveCounts counts args →
    Balances counts calls (Eval.apply limit fuel function args location) fun results _ =>
      AllHaveCounts counts results ∧ results.length = resultCount function
  enter : ∀ {calls closure args location}, Counted.function counts closure.literal →
    AllHaveCounts counts args →
    Balances counts calls (Eval.enter limit fuel closure args location) fun results _ =>
      AllHaveCounts counts results ∧ results.length = closure.literal.signature.results.length
  statements : ∀ {calls env body stmts}, (CallStack.expected calls).length = body.results →
    Counted.stmts counts body stmts →
    Balances counts calls (Eval.statements limit fuel env stmts) fun flow _ =>
      Leaves counts body (breaksOutAny stmts) (isTerminatingList stmts) flow
  block : ∀ {calls env body stmts}, (CallStack.expected calls).length = body.results →
    Counted.stmts counts body stmts →
    Balances counts calls (Eval.block limit fuel env stmts) fun flow _ =>
      Leaves counts body (breaksOutAny stmts) (isTerminatingList stmts) flow
  header : ∀ {calls env body init}, (CallStack.expected calls).length = body.results →
    Counted.optionalStmt counts body init →
    Balances counts calls (Eval.header limit fuel env init) fun _ _ => True
  statement : ∀ {calls env body stmt}, (CallStack.expected calls).length = body.results →
    Counted.stmt counts body stmt →
    Balances counts calls (Eval.statement limit fuel env stmt) fun flow _ =>
      Leaves counts body stmt.breaksOut stmt.isTerminating flow
  conditional : ∀ {calls env body found}, (CallStack.expected calls).length = body.results →
    Counted.ifStmt counts body found →
    Balances counts calls (Eval.conditional limit fuel env found) fun flow _ =>
      Leaves counts body found.breaksOut found.isTerminating flow
  rounds : ∀ {calls env body guard post inner location}, (CallStack.expected calls).length = body.results →
    Counted.optionalExpr counts guard → Counted.optionalStmt counts body post →
    Counted.stmts counts body.inside inner →
    Balances counts calls (Eval.rounds limit fuel env guard post inner location) fun flow _ =>
      Leaves counts body false (guard.isNone && !breaksOutAny inner) flow
  proceeds : ∀ {calls env guard location}, Counted.optionalExpr counts guard →
    Balances counts calls (Eval.proceeds limit fuel env guard location) fun goes _ =>
      guard = none → goes = true
  switch : ∀ {calls env body tag cases}, (CallStack.expected calls).length = body.results →
    Counted.optionalExpr counts tag → Counted.cases counts body cases →
    Balances counts calls (Eval.switch limit fuel env tag cases) fun flow _ =>
      Leaves counts body false (cases.any SwitchCase.isDefault && isTerminatingCases cases) flow
  tagValue : ∀ {calls env tag}, Counted.optionalExpr counts tag →
    Balances counts calls (Eval.tagValue limit fuel env tag) fun _ _ => True
  select : ∀ {calls env body tagged cases}, Counted.cases counts body cases →
    Balances counts calls (Eval.select limit fuel env tagged cases) fun selected _ =>
      ∀ found, selected = some found → found ∈ cases
  anyMatches : ∀ {calls env tagged location exprs}, Counted.exprs counts exprs →
    (∀ expr ∈ exprs, Single counts expr) →
    Balances counts calls (Eval.anyMatches limit fuel env tagged location exprs) fun _ _ => True
  caseMatches : ∀ {calls env tagged location expr}, Counted.expr counts expr → Single counts expr →
    Balances counts calls (Eval.caseMatches limit fuel env tagged location expr) fun _ _ => True
  returning : ∀ {calls env body exprs location}, (CallStack.expected calls).length = body.results →
    Counted.stmt counts body (.return exprs location) →
    Balances counts calls (Eval.returning limit fuel env exprs location) fun flow _ =>
      Leaves counts body false true flow
  declare : ∀ {calls env target decl}, Counted.valueDecl counts decl →
    Balances counts calls (Eval.declare limit fuel env target decl) fun _ _ => True

variable {counts : Counts} {calls : CallStack} {limit fuel : Nat} {env : Env}

theorem counting_zero : Counting counts limit 0 where
  evaluate _ _ := .exhausted
  condition _ _ := .exhausted
  values _ _ := .exhausted
  eachValue _ _ := .exhausted
  call _ := .exhausted
  apply _ _ := .exhausted
  enter _ _ := .exhausted
  statements _ _ := .exhausted
  block _ _ := .exhausted
  header _ _ := .exhausted
  statement _ _ := .exhausted
  conditional _ _ := .exhausted
  rounds _ _ _ _ := .exhausted
  proceeds _ := .exhausted
  switch _ _ _ := .exhausted
  tagValue _ := .exhausted
  select _ := .exhausted
  anyMatches _ _ := .exhausted
  caseMatches _ _ := .exhausted
  returning _ _ := .exhausted
  declare _ := .exhausted

/-! ## Expressions -/

theorem balances_binary {op : BinaryOp} {left right : Value} {location : Location} :
    Balances counts calls (Eval.ofExcept (Value.binary op left right location)) fun value _ =>
      isScalar value.kind = true := by
  have computes := binary_computes op left right location
  refine .ofExcept (fun value result _ => ?_) (fun error result => ?_)
  · rw [result] at computes
    exact computes.1
  · rw [result] at computes
    exact computes

theorem miscounted_of_call {machine : Machine} {call : Expr} {function : Value} {results : List Value}
    {count? : Option Nat} {wanted : Nat → Prop} (accounts : Accounts counts machine)
    (called : machine.past machine.store (.called call function results)) (known : counts call count?)
    (agrees : ∀ found, count? = some found → wanted found) :
    wanted results.length ∨ Miscounted counts machine results.length := by
  by_cases same : count? = some results.length
  · exact Or.inl (agrees _ same)
  · have gives : results.length = resultCount function := accounts.past _ _ called
    exact Or.inr ⟨call, function, results, count?, called, rfl, gives.symm, known, same⟩

theorem Counting.binary_succ (counting : Counting counts limit fuel) {op : BinaryOp} {left right : Expr}
    {location : Location} (counted : Counted.expr counts (.binary left op right location)) :
    Balances counts calls (Eval.evaluate limit (fuel + 1) env (.binary left op right location)) fun value _ =>
      HasCounts counts value := by
  obtain ⟨countedLeft, singleLeft, countedRight, singleRight⟩ := counted
  have truth : ∀ outcome : Bool, HasCounts counts (.bool outcome) := fun _ => hasCounts_of_scalar rfl
  have second : Balances counts calls (do
      let outcome ← Eval.condition limit fuel env right location
      pure (.bool outcome)) fun value _ => HasCounts counts value :=
    (counting.condition countedRight singleRight).bind fun outcome _ => .pure fun _ => truth outcome
  cases op with
  | and =>
      refine (counting.condition countedLeft singleLeft).bind fun outcome _ => ?_
      cases outcome with
      | true => exact second
      | false => exact .pure fun _ => truth false
  | or =>
      refine (counting.condition countedLeft singleLeft).bind fun outcome _ => ?_
      cases outcome with
      | true => exact .pure fun _ => truth true
      | false => exact second
  | _ =>
      exact (counting.evaluate countedLeft singleLeft).bind fun leftValue _ =>
        (counting.evaluate countedRight singleRight).bind fun rightValue _ =>
          balances_binary.weaken fun _ _ => hasCounts_of_scalar

theorem Counting.evaluate_succ (counting : Counting counts limit fuel) {expr : Expr}
    (counted : Counted.expr counts expr) (single : Single counts expr) :
    Balances counts calls (Eval.evaluate limit (fuel + 1) env expr) fun value _ => HasCounts counts value := by
  cases expr with
  | integer | float | string => exact .pure fun _ => hasCounts_of_scalar rfl
  | identifier name location =>
      refine Balances.lookup?.bind fun found has => ?_
      split
      · exact .fail rfl
      · exact .pure fun _ => has _ rfl
      · exact .fail rfl
  | qualified package name location => exact .qualified
  | binary left op right location => exact counting.binary_succ counted
  | unary op operand location =>
      refine (counting.evaluate counted.1 counted.2).bind fun value _ => ?_
      exact .ofExcept (fun _ result _ => hasCounts_of_scalar (unary_scalar result))
        (fun _ result => unary_operational result)
  | call callee args location =>
      -- A call in the place of one value gives one, unless the run has met the call with a count that differs from
      -- the one it was checked with.
      obtain ⟨count?, known, one⟩ := single rfl
      refine (counting.call counted).bindNow fun results machine accounts same both => ?_
      obtain ⟨has, function, called⟩ := both
      have agrees := miscounted_of_call accounts called known one
      cases results with
      | nil =>
          refine ⟨accounts, fun found wrong => ?_⟩
          cases wrong
          exact agrees.resolve_left Nat.zero_ne_one
      | cons value rest =>
          cases rest with
          | nil => exact ⟨same, accounts, has value (List.mem_singleton_self value)⟩
          | cons second rest =>
              refine ⟨accounts, fun found wrong => ?_⟩
              cases wrong
              exact agrees.resolve_left fun one => by cases one
  | function literal => exact Balances.literalName.bind fun name _ => .makeClosure counted

theorem Counting.condition_succ (counting : Counting counts limit fuel) {expr : Expr} {location : Location}
    (counted : Counted.expr counts expr) (single : Single counts expr) :
    Balances counts calls (Eval.condition limit (fuel + 1) env expr location) fun _ _ => True :=
  (counting.evaluate counted single).bind fun _ _ =>
    .ofExcept (fun _ _ _ => trivial) (fun _ result => asBool_operational result)

theorem Counting.eachValue_succ (counting : Counting counts limit fuel) {exprs : List Expr}
    (counted : Counted.exprs counts exprs) (singles : ∀ expr ∈ exprs, Single counts expr) :
    Balances counts calls (Eval.eachValue limit (fuel + 1) env exprs) fun received _ =>
      PairsHaveCounts counts received ∧ received.length = exprs.length := by
  cases exprs with
  | nil => exact .pure fun _ => ⟨fun pair member => absurd member List.not_mem_nil, rfl⟩
  | cons expr rest =>
      obtain ⟨single, others⟩ := List.forall_mem_cons.mp singles
      exact (counting.evaluate counted.1 single).bind fun value has =>
        (counting.eachValue counted.2 others).bind fun received both =>
          .pure fun _ => ⟨List.forall_mem_cons.mpr ⟨has, both.1⟩, congrArg (· + 1) both.2⟩

theorem gives_call {expr : Expr} {wanted : Nat → Prop} (gives : Gives counts wanted [expr])
    (isCall : expr.isCall = true) :
    ∃ count?, counts expr count? ∧ ∀ found, count? = some found → wanted found := by
  cases gives with
  | alone _ known agrees => exact ⟨_, known, agrees⟩
  | each singles one =>
      obtain ⟨count?, known, agrees⟩ := singles expr (List.mem_singleton_self expr) isCall
      exact ⟨count?, known, fun found same => agrees found same ▸ one⟩

theorem Counting.values_succ (counting : Counting counts limit fuel) {exprs : List Expr} {wanted : Nat → Prop}
    (counted : Counted.exprs counts exprs) (gives : Gives counts wanted exprs) :
    Balances counts calls (Eval.values limit (fuel + 1) env exprs) (Received counts wanted) := by
  unfold Eval.values
  split
  · rename_i callee args location
    obtain ⟨count?, known, agrees⟩ := gives_call gives rfl
    refine (counting.call counted.1).bindNow fun results machine accounts same both => ?_
    obtain ⟨has, function, called⟩ := both
    have outcome := miscounted_of_call accounts called known agrees
    split
    · exact ⟨same, accounts, List.forall_mem_singleton.mpr (has _ (List.mem_singleton_self _)), outcome⟩
    · refine ⟨same, accounts, fun pair member => ?_, ?_⟩
      · obtain ⟨value, inside, rfl⟩ := List.mem_map.mp member
        exact has value inside
      · rw [List.length_map]
        exact outcome
  · rename_i plain
    have each : (∀ expr ∈ exprs, Single counts expr) ∧ wanted exprs.length := by
      cases gives with
      | each singles agrees => exact ⟨singles, agrees⟩
      | @alone expr _ isCall _ _ =>
          cases expr with
          | call callee args location => exact absurd rfl (plain callee args location)
          | _ => cases isCall
    exact (counting.eachValue counted each.1).weaken fun received _ both =>
      ⟨both.1, Or.inl (both.2 ▸ each.2)⟩

/-! ## Calls -/

theorem Counting.call_succ (counting : Counting counts limit fuel) {callee : Expr} {args : List Expr}
    {location : Location} (counted : Counted.expr counts (.call callee args location)) :
    Balances counts calls (Eval.call limit (fuel + 1) env callee args location) fun results machine =>
      AllHaveCounts counts results ∧ ∃ function,
        machine.past machine.store (.called (.call callee args location) function results) := by
  obtain ⟨countedCallee, single, countedArgs, gives⟩ := counted
  refine (counting.evaluate countedCallee single).bind fun function has => ?_
  refine ((counting.values countedArgs gives).weaken fun _ _ both => both.1).bind fun received all => ?_
  refine (counting.apply has ?_).bind fun results both => ?_
  · split
    · exact coerceArguments_all (fun source type has => has.coerce source type) all
    · intro value member
      obtain ⟨pair, inside, rfl⟩ := List.mem_map.mp member
      exact all pair inside
  · have met : Balances counts calls (Eval.meet (.called (.call callee args location) function results)) _ :=
      .meet both.2
    exact met.bindNow fun _ machine accounts same called => ⟨same, accounts, both.1, function, called⟩

theorem Counting.apply_succ (counting : Counting counts limit fuel) {function : Value} {args : List Value}
    {location : Location} (has : HasCounts counts function) (all : AllHaveCounts counts args) :
    Balances counts calls (Eval.apply limit (fuel + 1) function args location) fun results _ =>
      AllHaveCounts counts results ∧ results.length = resultCount function := by
  cases function with
  | function closure => exact counting.enter (has closure rfl) all
  | builtin found => exact Balances.callBuiltin
  | _ => exact .fail rfl

/-- The body of a function leads to as many results as the function has. -/
theorem balances_resultsOf {signature : Signature} {body : List Stmt} {name : String} {flow : Flow}
    (named : signature.resultNames = [] ∨ signature.resultNames.length = signature.results.length)
    (ends : signature.results = [] ∨ isTerminatingList body = true)
    (leaves : Leaves counts (.ofFunction name signature) (breaksOutAny body) (isTerminatingList body) flow) :
    Balances counts calls (Eval.resultsOf env signature flow) fun results _ =>
      AllHaveCounts counts results ∧ results.length = signature.results.length := by
  have none : AllHaveCounts counts [] := fun value member => absurd member List.not_mem_nil
  cases flow with
  -- The body runs to its end only where it is not terminating, and then the function has no results.
  | normal =>
      have reached : isTerminatingList body = false := leaves
      rw [reached] at ends
      have empty := ends.resolve_right Bool.false_ne_true
      refine .pure fun _ => ⟨none, ?_⟩
      rw [empty]
      rfl
  | «break» => cases leaves.1
  | «continue» => cases leaves
  | «return» values =>
      obtain ⟨has, count⟩ := leaves
      cases values with
      | cons value values =>
          refine .pure fun _ => ⟨has, count.resolve_right ?_⟩
          rintro ⟨⟨⟩, _⟩
      | nil =>
          unfold Eval.resultsOf
          dsimp only
          split
          · rename_i unnamed
            refine .pure fun _ => ⟨none, count.resolve_right fun both => ?_⟩
            have named : (!signature.resultNames.isEmpty) = true := both.2
            rw [unnamed] at named
            cases named
          · rename_i named'
            refine Balances.namedResults (named.resolve_left fun empty => named' ?_)
            rw [empty]
            rfl

theorem Counting.enter_succ (counting : Counting counts limit fuel) {closure : Closure} {args : List Value}
    {location : Location} (counted : Counted.function counts closure.literal) (all : AllHaveCounts counts args) :
    Balances counts calls (Eval.enter limit (fuel + 1) closure args location) fun results _ =>
      AllHaveCounts counts results ∧ results.length = closure.literal.signature.results.length := by
  obtain ⟨identity, title, ⟨signature, body, place⟩, captured⟩ := closure
  obtain ⟨named, ⟨name, countedBody⟩, ends⟩ := counted
  unfold Eval.enter
  dsimp only
  refine Balances.depth.bind fun active _ => ?_
  split
  · exact .fail rfl
  split
  · exact .fail rfl
  refine Balances.openScope.bind fun inner _ => (Balances.bindParameters all).bind fun _ _ =>
    Balances.bindResults.bind fun _ _ => ?_
  have ran : Balances counts (calls.push ⟨title, signature.results⟩)
      (Eval.statements limit fuel inner body) _ :=
    counting.statements rfl countedBody
  refine ran.inFrame.bind fun flow leaves => (balances_resultsOf named ends leaves).bind fun results both => ?_
  rw [if_pos both.2]
  have met : Balances counts calls (Eval.meet (.returned ⟨identity, title, ⟨signature, body, place⟩, captured⟩
    results)) _ := .meet trivial
  exact (met.weaken fun _ _ _ => trivial).bind fun _ _ => .pure fun _ => both

/-! ## Statements -/

theorem Leaves.widen {body : Check.Body} {breaks terminating breaks' terminating' : Bool} {flow : Flow}
    (leaves : Leaves counts body breaks terminating flow) (more : breaks = true → breaks' = true)
    (less : terminating = false → terminating' = false) : Leaves counts body breaks' terminating' flow := by
  cases flow with
  | normal => exact less leaves
  | «break» => exact ⟨leaves.1, more leaves.2⟩
  | «continue» => exact leaves
  | «return» values => exact leaves

theorem terminating_cons {first : Stmt} {rest : List Stmt} (next : first.isTerminating = false)
    (last : isTerminatingList rest = false) : isTerminatingList (first :: rest) = false := by
  cases rest with
  | nil => exact next
  | cons second rest => exact last

theorem Counting.statements_succ (counting : Counting counts limit fuel) {body : Check.Body} {stmts : List Stmt}
    (expected : (CallStack.expected calls).length = body.results) (counted : Counted.stmts counts body stmts) :
    Balances counts calls (Eval.statements limit (fuel + 1) env stmts) fun flow _ =>
      Leaves counts body (breaksOutAny stmts) (isTerminatingList stmts) flow := by
  cases stmts with
  | nil => exact .pure fun _ => rfl
  | cons first rest =>
      refine (counting.statement expected counted.1).bind fun flow leaves => ?_
      have breaks : breaksOutAny (first :: rest) = (first.breaksOut || breaksOutAny rest) := rfl
      cases flow with
      | normal =>
          have next : first.isTerminating = false := leaves
          refine (counting.statements expected counted.2).weaken fun flow _ leavesRest => ?_
          refine leavesRest.widen (fun rest => ?_) (terminating_cons next)
          rw [breaks, rest, Bool.or_true]
      | «break» => exact .pure fun _ => ⟨leaves.1, by rw [breaks, leaves.2, Bool.true_or]⟩
      | «continue» => exact .pure fun _ => leaves
      | «return» values => exact .pure fun _ => leaves

theorem Counting.block_succ (counting : Counting counts limit fuel) {body : Check.Body} {stmts : List Stmt}
    (expected : (CallStack.expected calls).length = body.results) (counted : Counted.stmts counts body stmts) :
    Balances counts calls (Eval.block limit (fuel + 1) env stmts) fun flow _ =>
      Leaves counts body (breaksOutAny stmts) (isTerminatingList stmts) flow :=
  Balances.openScope.bind fun _ _ => counting.statements expected counted

theorem Counting.header_succ (counting : Counting counts limit fuel) {body : Check.Body} {init : Option Stmt}
    (expected : (CallStack.expected calls).length = body.results)
    (counted : Counted.optionalStmt counts body init) :
    Balances counts calls (Eval.header limit (fuel + 1) env init) fun _ _ => True := by
  cases init with
  | none => exact .pure fun _ => trivial
  | some init => exact (counting.statement expected counted).bind fun _ _ => .pure fun _ => trivial

theorem Counting.proceeds_succ (counting : Counting counts limit fuel) {guard : Option Expr} {location : Location}
    (counted : Counted.optionalExpr counts guard) :
    Balances counts calls (Eval.proceeds limit (fuel + 1) env guard location) fun goes _ =>
      guard = none → goes = true := by
  cases guard with
  | none => exact .pure fun _ _ => rfl
  | some expr =>
      refine (counting.condition counted.1 counted.2).weaken fun _ _ _ => ?_
      rintro ⟨⟩

theorem Counting.tagValue_succ (counting : Counting counts limit fuel) {tag : Option Expr}
    (counted : Counted.optionalExpr counts tag) :
    Balances counts calls (Eval.tagValue limit (fuel + 1) env tag) fun _ _ => True := by
  cases tag with
  | none => exact .pure fun _ => trivial
  | some expr => exact (counting.evaluate counted.1 counted.2).bind fun _ _ => .pure fun _ => trivial

theorem Counting.conditional_succ (counting : Counting counts limit fuel) {body : Check.Body} {found : IfStmt}
    (expected : (CallStack.expected calls).length = body.results) (counted : Counted.ifStmt counts body found) :
    Balances counts calls (Eval.conditional limit (fuel + 1) env found) fun flow _ =>
      Leaves counts body found.breaksOut found.isTerminating flow := by
  obtain ⟨init, condition, inner, orElse, location⟩ := found
  obtain ⟨countedInit, countedCondition, single, countedInner, countedElse⟩ := counted
  unfold Eval.conditional
  refine Balances.openScope.bind fun scope _ => (counting.header expected countedInit).bind fun _ _ =>
    (counting.condition countedCondition single).bind fun outcome _ => ?_
  cases outcome with
  | true =>
      refine (counting.block expected countedInner).weaken fun flow _ leaves => leaves.widen ?_ ?_
      · exact fun taken => Bool.or_eq_true_iff.mpr (Or.inl taken)
      · exact fun reached => Bool.and_eq_false_iff.mpr (Or.inl reached)
  | false =>
      have widen : ∀ {flow : Flow}, Leaves counts body orElse.breaksOut orElse.isTerminating flow →
          Leaves counts body (IfStmt.breaksOut ⟨init, condition, inner, orElse, location⟩)
            (IfStmt.isTerminating ⟨init, condition, inner, orElse, location⟩) flow :=
        fun leaves => leaves.widen (fun taken => Bool.or_eq_true_iff.mpr (Or.inr taken))
          fun reached => Bool.and_eq_false_iff.mpr (Or.inr reached)
      cases orElse with
      | absent => exact .pure fun _ => widen rfl
      | block other => exact (counting.block expected countedElse).weaken fun _ _ => widen
      | chain next => exact (counting.conditional expected countedElse).weaken fun _ _ => widen

/-! ## Loops and switches -/

theorem Counting.rounds_succ (counting : Counting counts limit fuel) {body : Check.Body} {guard : Option Expr}
    {post : Option Stmt} {inner : List Stmt} {location : Location}
    (expected : (CallStack.expected calls).length = body.results) (countedGuard : Counted.optionalExpr counts guard)
    (countedPost : Counted.optionalStmt counts body post) (countedInner : Counted.stmts counts body.inside inner) :
    Balances counts calls (Eval.rounds limit (fuel + 1) env guard post inner location) fun flow _ =>
      Leaves counts body false (guard.isNone && !breaksOutAny inner) flow := by
  unfold Eval.rounds
  refine (counting.proceeds countedGuard).bind fun goes endless => ?_
  cases goes with
  | false =>
      refine .pure fun _ => Bool.and_eq_false_iff.mpr (Or.inl ?_)
      cases guard with
      | none => cases endless rfl
      | some expr => rfl
  | true =>
      have again : Balances counts calls (do
          Eval.header limit fuel env post
          Eval.rounds limit fuel env guard post inner location) fun flow _ =>
            Leaves counts body false (guard.isNone && !breaksOutAny inner) flow :=
        (counting.header expected countedPost).bind fun _ _ =>
          counting.rounds expected countedGuard countedPost countedInner
      have expectedInner : (CallStack.expected calls).length = body.inside.results := expected
      refine (counting.block expectedInner countedInner).bind fun flow leaves => ?_
      cases flow with
      | normal => exact again
      | «continue» => exact again
      -- A break leaves the loop only if the body has one that is not caught inside.
      | «break» =>
          refine .pure fun _ => Bool.and_eq_false_iff.mpr (Or.inr ?_)
          rw [leaves.2]
          rfl
      | «return» values => exact .pure fun _ => leaves

theorem counted_case {body : Check.Body} {cases : List SwitchCase} (counted : Counted.cases counts body cases) :
    ∀ found ∈ cases, Counted.stmts counts body.insideCase found.body := by
  induction cases with
  | nil => exact fun _ member => absurd member List.not_mem_nil
  | cons first rest ih =>
      obtain ⟨label, inner, location⟩ := first
      exact List.forall_mem_cons.mpr ⟨counted.2.1, ih counted.2.2⟩

theorem terminating_case {cases : List SwitchCase} (terminating : isTerminatingCases cases = true) :
    ∀ found ∈ cases, isTerminatingList found.body = true ∧ breaksOutAny found.body = false := by
  induction cases with
  | nil => exact fun _ member => absurd member List.not_mem_nil
  | cons first rest ih =>
      obtain ⟨label, inner, location⟩ := first
      have parts : (isTerminatingList inner && !breaksOutAny inner && isTerminatingCases rest) = true :=
        terminating
      simp only [Bool.and_eq_true, Bool.not_eq_true'] at parts
      exact List.forall_mem_cons.mpr ⟨parts.1, ih parts.2⟩

theorem no_default {selected : Option SwitchCase} {cases : List SwitchCase}
    (chosen : selected.or (Eval.defaultCase cases) = none) : cases.any SwitchCase.isDefault = false := by
  have none : cases.find? SwitchCase.isDefault = none := (Option.or_eq_none_iff.mp chosen).2
  rw [List.any_eq_false]
  exact List.find?_eq_none.mp none

/-- A case that is left by a `break` or at its end is no case of a terminating statement. -/
theorem not_terminating_of_left {cases : List SwitchCase} {found : SwitchCase} (member : found ∈ cases)
    (left : isTerminatingList found.body = false ∨ breaksOutAny found.body = true) :
    (cases.any SwitchCase.isDefault && isTerminatingCases cases) = false := by
  refine Bool.and_eq_false_iff.mpr (Or.inr ?_)
  by_contra terminating
  obtain ⟨ends, closed⟩ := terminating_case (by simpa using terminating) found member
  rw [ends, closed] at left
  exact left.elim (fun impossible => by cases impossible) fun impossible => by cases impossible

theorem Counting.select_succ (counting : Counting counts limit fuel) {body : Check.Body}
    {tagged : Option (Value × Expr)} {cases : List SwitchCase} (counted : Counted.cases counts body cases) :
    Balances counts calls (Eval.select limit (fuel + 1) env tagged cases) fun selected _ =>
      ∀ found, selected = some found → found ∈ cases := by
  cases cases with
  | nil => exact .pure fun _ _ none => by cases none
  | cons first rest =>
      obtain ⟨label, inner, location⟩ := first
      obtain ⟨countedLabel, _, countedRest⟩ := counted
      have others : Balances counts calls (Eval.select limit fuel env tagged rest) fun selected _ =>
          ∀ found, selected = some found → found ∈ ⟨label, inner, location⟩ :: rest :=
        (counting.select countedRest).weaken
          fun _ _ inside found same => List.mem_cons_of_mem _ (inside found same)
      cases label with
      | otherwise => exact others
      | values exprs =>
          have countedValues : Counted.exprs counts exprs ∧ ∀ value ∈ exprs, Single counts value := countedLabel
          refine (counting.anyMatches countedValues.1 countedValues.2).bind fun matched _ => ?_
          cases matched with
          | true =>
              refine .pure fun _ => ?_
              rintro _ ⟨⟩
              exact List.mem_cons_self
          | false => exact others

theorem Counting.anyMatches_succ (counting : Counting counts limit fuel) {tagged : Option (Value × Expr)}
    {location : Location} {exprs : List Expr} (counted : Counted.exprs counts exprs)
    (singles : ∀ expr ∈ exprs, Single counts expr) :
    Balances counts calls (Eval.anyMatches limit (fuel + 1) env tagged location exprs) fun _ _ => True := by
  cases exprs with
  | nil => exact .pure fun _ => trivial
  | cons expr rest =>
      obtain ⟨single, others⟩ := List.forall_mem_cons.mp singles
      refine (counting.caseMatches counted.1 single).bind fun matched _ => ?_
      cases matched with
      | true => exact .pure fun _ => trivial
      | false => exact counting.anyMatches counted.2 others

theorem Counting.caseMatches_succ (counting : Counting counts limit fuel) {tagged : Option (Value × Expr)}
    {location : Location} {expr : Expr} (counted : Counted.expr counts expr) (single : Single counts expr) :
    Balances counts calls (Eval.caseMatches limit (fuel + 1) env tagged location expr) fun _ _ => True := by
  cases tagged with
  | none => exact counting.condition counted single
  | some pair =>
      exact (counting.evaluate counted single).bind fun _ _ =>
        .ofExcept (fun _ _ _ => trivial) (fun _ result => equals_operational result)

theorem Counting.switch_succ (counting : Counting counts limit fuel) {body : Check.Body} {tag : Option Expr}
    {cases : List SwitchCase} (expected : (CallStack.expected calls).length = body.results)
    (countedTag : Counted.optionalExpr counts tag) (counted : Counted.cases counts body cases) :
    Balances counts calls (Eval.switch limit (fuel + 1) env tag cases) fun flow _ =>
      Leaves counts body false (cases.any SwitchCase.isDefault && isTerminatingCases cases) flow := by
  unfold Eval.switch
  refine (counting.tagValue countedTag).bind fun tagged _ => ?_
  refine (counting.select counted).bind fun selected inside => ?_
  cases chosen : selected.or (Eval.defaultCase cases) with
  | none => exact .pure fun _ => Bool.and_eq_false_iff.mpr (Or.inl (no_default chosen))
  | some found =>
      have member := Eval.mem_of_chosen inside chosen
      have expectedInner : (CallStack.expected calls).length = body.insideCase.results := expected
      refine (counting.block expectedInner (counted_case counted found member)).bind fun flow leaves => ?_
      cases flow with
      | normal => exact .pure fun _ => not_terminating_of_left member (Or.inl leaves)
      | «break» => exact .pure fun _ => not_terminating_of_left member (Or.inr leaves.2)
      | «continue» => exact .pure fun _ => leaves
      | «return» values => exact .pure fun _ => leaves

/-! ## Values that are stored or returned -/

theorem balanced_fail {machine : Machine} {error : RuntimeError} {received : List (Value × Option Expr)}
    {wanted : Nat → Prop} {post : α → Machine → Prop} (accounts : Accounts counts machine)
    (outcome : Received counts wanted received machine) (other : ¬ wanted received.length)
    (wrong : miscount? error = some received.length) :
    Balanced counts calls post (Eval.fail error machine) := by
  refine ⟨accounts, fun found same => ?_⟩
  obtain rfl := Option.some.inj (wrong.symm.trans same)
  exact outcome.2.resolve_left other

theorem Counting.returning_succ (counting : Counting counts limit fuel) {body : Check.Body} {exprs : List Expr}
    {location : Location} (expected : (CallStack.expected calls).length = body.results)
    (counted : Counted.stmt counts body (.return exprs location)) :
    Balances counts calls (Eval.returning limit (fuel + 1) env exprs location) fun flow _ =>
      Leaves counts body false true flow := by
  obtain ⟨countedValues, gives⟩ := counted
  cases exprs with
  | nil =>
      refine .pure fun _ => ⟨fun value member => absurd member List.not_mem_nil, ?_⟩
      rcases gives with named | gives
      · exact Or.inr ⟨rfl, named.2⟩
      · cases gives with
        | each _ none => exact Or.inl none
  | cons first rest =>
      have gives := gives.resolve_left fun both => by cases both.1
      unfold Eval.returning
      refine Balances.frame?.bind fun frame same => ?_
      have count : (frame.getD ⟨"", []⟩).results.length = body.results := by
        rw [same]
        exact expected
      refine (counting.values countedValues gives).bindNow fun received machine accounts same outcome => ?_
      split
      · rename_i agrees
        have returned : Balances counts calls (Eval.returnedValues location _ received) _ :=
          .returnedValues outcome.1 agrees
        exact returned.bind (fun values both => .pure fun _ => ⟨both.1, Or.inl (both.2.trans count)⟩)
          machine accounts same
      · rename_i other
        exact balanced_fail accounts outcome (count ▸ other) rfl

theorem Counting.declare_succ (counting : Counting counts limit fuel) {target : Env} {decl : ValueDecl}
    (counted : Counted.valueDecl counts decl) :
    Balances counts calls (Eval.declare limit (fuel + 1) env target decl) fun _ _ => True := by
  obtain ⟨isConst, names, type?, values, location⟩ := decl
  obtain ⟨countedValues, gives⟩ := counted
  cases values with
  | nil =>
      cases type? with
      | none => exact .fail rfl
      | some type =>
          refine Balances.bindValues fun value member => ?_
          obtain ⟨_, _, rfl⟩ := List.mem_map.mp member
          exact hasCounts_zero type
  | cons first rest =>
      have gives := gives.resolve_left (List.cons_ne_nil first rest)
      refine (counting.values countedValues gives).bindNow fun received machine accounts same outcome => ?_
      dsimp only
      split
      · exact (Balances.declaredValues outcome.1).bind (fun _ all => .bindValues all) machine accounts same
      · rename_i other
        exact balanced_fail accounts outcome other rfl

/-- Values are taken by as many names, or an error says that there were not as many. -/
theorem balances_assignment {exprs : List Expr} {names : List String} {location : Location}
    {next : List (Value × Option Expr) → Eval Unit} (counting : Counting counts limit fuel)
    (counted : Counted.exprs counts exprs) (gives : Gives counts (· = names.length) exprs)
    (rest : ∀ received, PairsHaveCounts counts received →
      Balances counts calls (next received) fun _ _ => True) :
    Balances counts calls (do
      let received ← Eval.values limit fuel env exprs
      if received.length = names.length then do
        next received
        pure Flow.normal
      else Eval.fail (.assignmentCount names.length received.length location)) fun flow _ =>
        flow = .normal := by
  refine (counting.values counted gives).bindNow fun received machine accounts same outcome => ?_
  split
  · exact (rest received outcome.1).bind (fun _ _ => .pure fun _ => rfl) machine accounts same
  · rename_i other
    exact balanced_fail accounts outcome other rfl

theorem Counting.statement_succ (counting : Counting counts limit fuel) {body : Check.Body} {stmt : Stmt}
    (expected : (CallStack.expected calls).length = body.results) (counted : Counted.stmt counts body stmt) :
    Balances counts calls (Eval.statement limit (fuel + 1) env stmt) fun flow _ =>
      Leaves counts body stmt.breaksOut stmt.isTerminating flow := by
  cases stmt with
  | declare decl => exact (counting.declare counted).bind fun _ _ => .pure fun _ => rfl
  | define names exprs location =>
      refine (balances_assignment counting counted.1 counted.2 fun received all =>
        Balances.defineValues all).weaken ?_
      rintro _ _ rfl
      rfl
  | assign targets exprs location =>
      refine (balances_assignment counting counted.1 counted.2 fun received all =>
        Balances.storeValues all).weaken ?_
      rintro _ _ rfl
      rfl
  | compound target op expr location =>
      refine Balances.lookup.bind fun current _ => (counting.evaluate counted.1 counted.2).bind fun operand _ => ?_
      exact balances_binary.bind fun updated scalar =>
        (Balances.assign (hasCounts_of_scalar scalar)).bind fun _ _ => .pure fun _ => rfl
  | step target up location =>
      exact Balances.lookup.bind fun current _ => Balances.stepped.bind fun updated has =>
        (Balances.assign has).bind fun _ _ => .pure fun _ => rfl
  | ifElse found => exact counting.conditional expected counted
  | loop init guard post inner location =>
      obtain ⟨countedInit, countedGuard, countedPost, countedInner⟩ := counted
      refine Balances.openScope.bind fun scope _ => (counting.header expected countedInit).bind fun _ _ =>
        (counting.rounds expected countedGuard countedPost countedInner).weaken fun flow _ leaves => ?_
      refine leaves.widen (fun breaks => by cases breaks) fun reached => ?_
      cases guard with
      | none => exact reached
      | some expr => rfl
  | switch init tag cases location =>
      obtain ⟨countedInit, countedTag, countedCases⟩ := counted
      exact Balances.openScope.bind fun scope _ => (counting.header expected countedInit).bind fun _ _ =>
        counting.switch expected countedTag countedCases
  | «return» exprs location => exact counting.returning expected counted
  | «break» location => exact .pure fun _ => ⟨counted, rfl⟩
  | «continue» location => exact .pure fun _ => counted
  | block inner => exact counting.block expected counted
  | expression expr =>
      cases expr with
      | call callee args location => exact (counting.call counted).bindNow fun _ _ accounts same _ => ⟨same, accounts, rfl⟩
      | _ => exact (counting.evaluate counted fun isCall => by cases isCall).bind fun _ _ => .pure fun _ => rfl

/-! ## All functions of the evaluator -/

theorem Counting.succ (counting : Counting counts limit fuel) : Counting counts limit (fuel + 1) where
  evaluate := counting.evaluate_succ
  condition := counting.condition_succ
  values := counting.values_succ
  eachValue := counting.eachValue_succ
  call := counting.call_succ
  apply := counting.apply_succ
  enter := counting.enter_succ
  statements := counting.statements_succ
  block := counting.block_succ
  header := counting.header_succ
  statement := counting.statement_succ
  conditional := counting.conditional_succ
  rounds := counting.rounds_succ
  proceeds := counting.proceeds_succ
  switch := counting.switch_succ
  tagValue := counting.tagValue_succ
  select := counting.select_succ
  anyMatches := counting.anyMatches_succ
  caseMatches := counting.caseMatches_succ
  returning := counting.returning_succ
  declare := counting.declare_succ

theorem counting (counts : Counts) (limit fuel : Nat) : Counting counts limit fuel := by
  induction fuel with
  | zero => exact counting_zero
  | succ fuel ih => exact ih.succ

end MiniGo.Running
