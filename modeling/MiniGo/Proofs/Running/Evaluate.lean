import MiniGo.Proofs.Running.Calls

/-!
# Running code keeps the invariant

`Sound` says of every function of the evaluator what it keeps when the names of the code are resolved.
Running code is bounded by fuel, so the proof is by induction on it: each function is sound with one
step more if all of them are sound with what is left.
-/

namespace MiniGo.Running

open Lexical

/-- Code whose names are resolved keeps the invariant, run with a bound on its length. -/
structure Sound (program : Nat → Facts) (limit fuel : Nat) : Prop where
  evaluate : ∀ {calls world package context env expr}, Fits program world package context env →
    Judged.expr (program package) context expr →
    Keeps program calls none world (Eval.evaluate limit fuel env expr)
      (fun later value => Valid program later value)
  condition : ∀ {calls world package context env expr location},
    Fits program world package context env → Judged.expr (program package) context expr →
    Keeps program calls none world (Eval.condition limit fuel env expr location) (fun _ _ => True)
  values : ∀ {calls world package context env exprs}, Fits program world package context env →
    Judged.exprs (program package) context exprs →
    Keeps program calls none world (Eval.values limit fuel env exprs)
      (fun later received => AllReceived program later received)
  eachValue : ∀ {calls world package context env exprs}, Fits program world package context env →
    Judged.exprs (program package) context exprs →
    Keeps program calls none world (Eval.eachValue limit fuel env exprs)
      (fun later received => AllReceived program later received)
  call : ∀ {calls world package context env callee args location},
    Fits program world package context env → Judged.expr (program package) context callee →
    Judged.exprs (program package) context args →
    Keeps program calls none world (Eval.call limit fuel env callee args location)
      (fun later results => AllValid program later results)
  apply : ∀ {calls world function args location}, Offered program world function →
    AllOffered program world args →
    Keeps program calls none world (Eval.apply limit fuel function args location)
      (fun later results => AllValid program later results)
  enter : ∀ {calls world closure args location}, ClosureFits program world closure →
    AllOffered program world args →
    Keeps program calls none world (Eval.enter limit fuel closure args location)
      (fun later results => AllValid program later results)
  statements : ∀ {calls world package context env body}, Fits program world package context env →
    Owned context → Judged.stmts (program package) context body →
    Keeps program calls env.head? world (Eval.statements limit fuel env body)
      (fun later flow => FlowFits program calls later flow)
  block : ∀ {calls world package context env body scope}, Fits program world package context env →
    Enters (program package) context scope →
    Judged.stmts (program package) (context.enter scope) body →
    Keeps program calls none world (Eval.block limit fuel env body)
      (fun later flow => FlowFits program calls later flow)
  header : ∀ {calls world package context env init}, Fits program world package context env →
    Owned context → Judged.optionalStmt (program package) context init →
    Keeps program calls env.head? world (Eval.header limit fuel env init)
      (fun later _ => Fits program later package (context.addAll (declaredBy init)) env)
  statement : ∀ {calls world package context env stmt}, Fits program world package context env →
    Owned context → Judged.stmt (program package) context stmt →
    Keeps program calls env.head? world (Eval.statement limit fuel env stmt)
      (fun later flow => Fits program later package (context.addAll (declared stmt)) env ∧
        FlowFits program calls later flow)
  conditional : ∀ {calls world package context env found}, Fits program world package context env →
    Judged.ifStmt (program package) context found →
    Keeps program calls none world (Eval.conditional limit fuel env found)
      (fun later flow => FlowFits program calls later flow)
  rounds : ∀ {calls world package context env guard post body location scope},
    Fits program world package context env → Owned context →
    Judged.optionalExpr (program package) context guard →
    Judged.optionalStmt (program package) context post → declaredBy post = [] →
    Enters (program package) context scope →
    Judged.stmts (program package) (context.enter scope) body →
    Keeps program calls env.head? world (Eval.rounds limit fuel env guard post body location)
      (fun later flow => FlowFits program calls later flow)
  proceeds : ∀ {calls world package context env guard location},
    Fits program world package context env →
    Judged.optionalExpr (program package) context guard →
    Keeps program calls none world (Eval.proceeds limit fuel env guard location) (fun _ _ => True)
  switch : ∀ {calls world package context env tag cases}, Fits program world package context env →
    Judged.optionalExpr (program package) context tag →
    Judged.cases (program package) context cases →
    Keeps program calls none world (Eval.switch limit fuel env tag cases)
      (fun later flow => FlowFits program calls later flow)
  tagValue : ∀ {calls world package context env tag}, Fits program world package context env →
    Judged.optionalExpr (program package) context tag →
    Keeps program calls none world (Eval.tagValue limit fuel env tag) (fun _ _ => True)
  select : ∀ {calls world package context env tagged cases},
    Fits program world package context env → Judged.cases (program package) context cases →
    Keeps program calls none world (Eval.select limit fuel env tagged cases)
      (fun _ found => ∀ selected, found = some selected → selected ∈ cases)
  anyMatches : ∀ {calls world package context env tagged location exprs},
    Fits program world package context env → Judged.exprs (program package) context exprs →
    Keeps program calls none world (Eval.anyMatches limit fuel env tagged location exprs)
      (fun _ _ => True)
  caseMatches : ∀ {calls world package context env tagged location expr},
    Fits program world package context env → Judged.expr (program package) context expr →
    Keeps program calls none world (Eval.caseMatches limit fuel env tagged location expr)
      (fun _ _ => True)
  returning : ∀ {calls world package context env exprs location},
    Fits program world package context env → Judged.exprs (program package) context exprs →
    Keeps program calls none world (Eval.returning limit fuel env exprs location)
      (fun later flow => FlowFits program calls later flow)
  declare : ∀ {calls world package context env target decl} {top : Option ScopeId}
    {post : World → Unit → Prop}, Fits program world package context env →
    Judged.exprs (program package) context decl.values →
    (∀ type, decl.type? = some type → Inhabits type) →
    (∀ later values, Grows none world later → values.length = decl.names.length →
      AllValid program later values →
      (∀ type, decl.type? = some type → ∀ value ∈ values, value.conformsTo type = true) →
      Keeps program calls top later
        (Eval.bindValues target (!decl.isConst) decl.type? decl.names values) post) →
    Keeps program calls top world (Eval.declare limit fuel env target decl) post

variable {program : Nat → Facts} {limit fuel : Nat} {calls : CallStack} {world : World}
  {package : Nat} {context : Context} {env : Env}

theorem sound_zero : Sound program limit 0 where
  evaluate _ _ := .exhausted
  condition _ _ := .exhausted
  values _ _ := .exhausted
  eachValue _ _ := .exhausted
  call _ _ _ := .exhausted
  apply _ _ := .exhausted
  enter _ _ := .exhausted
  statements _ _ _ := .exhausted
  block _ _ _ := .exhausted
  header _ _ _ := .exhausted
  statement _ _ _ := .exhausted
  conditional _ _ := .exhausted
  rounds _ _ _ _ _ _ _ := .exhausted
  proceeds _ _ := .exhausted
  switch _ _ _ := .exhausted
  tagValue _ _ := .exhausted
  select _ _ := .exhausted
  anyMatches _ _ := .exhausted
  caseMatches _ _ := .exhausted
  returning _ _ := .exhausted
  declare _ _ _ _ := .exhausted

/-! ## Expressions -/

theorem keeps_binary {op : BinaryOp} {left right : Value} {location : Location} {top : Option ScopeId} :
    Keeps program calls top world (Eval.ofExcept (Value.binary op left right location))
      (fun later value => Valid program later value) := by
  have computes := binary_computes op left right location
  refine .ofExcept (fun value result => ?_) (fun error result => ?_)
  · rw [result] at computes
    exact valid_of_scalar computes.1
  · rw [result] at computes
    exact computes.excused

theorem keeps_identifier {name : String} {location : Location} (fits : Fits program world package context env)
    (judged : Judged.expr (program package) context (.identifier name location)) :
    Keeps program calls none world (Eval.evaluate limit (fuel + 1) env (.identifier name location))
      (fun later value => Valid program later value) := by
  refine (Keeps.lookup? fits judged).bind ?_
  rintro _ _ _ ⟨rfl, value, rfl, id, slot, _, known, leads⟩
  cases slot with
  | package ref =>
      -- The checker took the name for a value, so the slot it leads to is none of a package.
      obtain ⟨_, kind, mutable, isValue⟩ := leads
      cases known.symm.trans isValue
  | value kind mutable =>
      obtain ⟨_, valid⟩ := leads
      cases value with
      | package => exact nomatch valid.1
      | _ => exact .pure valid

/-- The right operand of a logical operator is evaluated only where the left one leaves the outcome open. -/
theorem Sound.binary_succ (sound : Sound program limit fuel) {op : BinaryOp} {left right : Expr}
    {location : Location} (fits : Fits program world package context env)
    (judged : Judged.expr (program package) context (.binary left op right location)) :
    Keeps program calls none world (Eval.evaluate limit (fuel + 1) env (.binary left op right location))
      (fun later value => Valid program later value) := by
  obtain ⟨judgedLeft, judgedRight⟩ := judged
  have second : ∀ later, Grows none world later → Keeps program calls none later (do
      let outcome ← Eval.condition limit fuel env right location
      pure (.bool outcome)) (fun last value => Valid program last value) := fun later grows =>
    (sound.condition (fits.grows_none grows) judgedRight).bind fun _ _ _ _ => .pure (valid_of_scalar rfl)
  cases op with
  | and =>
      refine (sound.condition fits judgedLeft).bind fun later outcome grows _ => ?_
      cases outcome with
      | true => exact second later grows
      | false => exact .pure (valid_of_scalar rfl)
  | or =>
      refine (sound.condition fits judgedLeft).bind fun later outcome grows _ => ?_
      cases outcome with
      | true => exact .pure (valid_of_scalar rfl)
      | false => exact second later grows
  | _ =>
      refine (sound.evaluate fits judgedLeft).bind fun later leftValue grows _ => ?_
      refine (sound.evaluate (fits.grows_none grows) judgedRight).bind fun _ rightValue _ _ => ?_
      exact keeps_binary

theorem Sound.evaluate_succ (sound : Sound program limit fuel) {expr : Expr}
    (fits : Fits program world package context env)
    (judged : Judged.expr (program package) context expr) :
    Keeps program calls none world (Eval.evaluate limit (fuel + 1) env expr)
      (fun later value => Valid program later value) := by
  cases expr with
  | integer => exact .pure (valid_of_scalar rfl)
  | float => exact .pure (valid_of_scalar rfl)
  | string => exact .pure (valid_of_scalar rfl)
  | identifier name location => exact keeps_identifier fits judged
  | qualified name member location =>
      obtain ⟨exported, path, used, shows⟩ := judged
      exact Keeps.qualified fits used shows exported
  | binary left op right location => exact sound.binary_succ fits judged
  | unary op operand location =>
      have judgedOperand : Judged.expr (program package) context operand := judged
      refine (sound.evaluate fits judgedOperand).bind fun later value _ _ => ?_
      exact .ofExcept (fun _ result => valid_of_scalar (unary_scalar result))
        (fun _ result => (unary_operational result).excused)
  | call callee args location =>
      refine (sound.call fits judged.1 judged.2).bind fun later results _ valid => ?_
      cases results with
      | nil => exact .fail trivial
      | cons value rest =>
          cases rest with
          | nil => exact .pure (valid value (by simp))
          | cons => exact .fail trivial
  | function literal =>
      refine Keeps.literalName.bind ?_
      rintro _ name _ rfl
      exact Keeps.makeClosure fits judged

theorem Sound.condition_succ (sound : Sound program limit fuel) {expr : Expr} {location : Location}
    (fits : Fits program world package context env)
    (judged : Judged.expr (program package) context expr) :
    Keeps program calls none world (Eval.condition limit (fuel + 1) env expr location)
      (fun _ _ => True) := by
  refine (sound.evaluate fits judged).bind fun later value _ _ => ?_
  exact .ofExcept (fun _ _ => trivial) (fun _ result => (asBool_operational result).excused)

theorem Sound.eachValue_succ (sound : Sound program limit fuel) {exprs : List Expr}
    (fits : Fits program world package context env)
    (judged : Judged.exprs (program package) context exprs) :
    Keeps program calls none world (Eval.eachValue limit (fuel + 1) env exprs)
      (fun later received => AllReceived program later received) := by
  cases exprs with
  | nil => exact .pure nofun
  | cons expr rest =>
      refine (sound.evaluate fits judged.1).bind fun later value grows valid => ?_
      refine (sound.eachValue (fits.grows_none grows) judged.2).bind fun last others growsLast validRest => ?_
      exact .pure (List.forall_mem_cons.mpr ⟨valid.grows growsLast, validRest⟩)

theorem Sound.values_succ (sound : Sound program limit fuel) {exprs : List Expr}
    (fits : Fits program world package context env)
    (judged : Judged.exprs (program package) context exprs) :
    Keeps program calls none world (Eval.values limit (fuel + 1) env exprs)
      (fun later received => AllReceived program later received) := by
  unfold Eval.values
  split
  · rename_i callee args location
    obtain ⟨⟨judgedCallee, judgedArgs⟩, _⟩ := judged
    refine (sound.call fits judgedCallee judgedArgs).bind fun later results _ valid => ?_
    split
    · rename_i value
      exact .pure (List.forall_mem_singleton.mpr (valid value (by simp)))
    · refine .pure fun pair member => ?_
      obtain ⟨value, inside, rfl⟩ := List.mem_map.mp member
      exact valid value inside
  · exact sound.eachValue fits judged

/-! ## Calls -/

theorem Sound.call_succ (sound : Sound program limit fuel) {callee : Expr} {args : List Expr}
    {location : Location} (fits : Fits program world package context env)
    (judgedCallee : Judged.expr (program package) context callee)
    (judgedArgs : Judged.exprs (program package) context args) :
    Keeps program calls none world (Eval.call limit (fuel + 1) env callee args location)
      (fun later results => AllValid program later results) := by
  refine (sound.evaluate fits judgedCallee).bind fun later function grows valid => ?_
  refine (sound.values (fits.grows_none grows) judgedArgs).bind fun last received growsLast received' => ?_
  refine (sound.apply (valid.grows growsLast).2 ?_).bind fun behind results _ validResults => ?_
  · split
    · exact fun value member => (Keeps.coerceArguments received' value member).2
    · intro value member
      obtain ⟨pair, inside, rfl⟩ := List.mem_map.mp member
      exact (received' pair inside).2
  · have good : ∀ store, Typed program behind store →
        Good program behind store (.called (.call callee args location) function results) :=
      fun _ _ => trivial
    refine (Keeps.meet good).bind ?_
    rintro _ _ _ rfl
    exact .pure validResults

theorem Sound.apply_succ (sound : Sound program limit fuel) {function : Value} {args : List Value}
    {location : Location} (offered : Offered program world function)
    (offeredArgs : AllOffered program world args) :
    Keeps program calls none world (Eval.apply limit (fuel + 1) function args location)
      (fun later results => AllValid program later results) := by
  cases function with
  | function closure => exact sound.enter (offered closure rfl) offeredArgs
  | builtin found => exact Keeps.callBuiltin
  | _ => exact .fail trivial

/-- A call opens a scope of its own inside the scopes that the function captured; what comes back
fits the signature. -/
theorem Sound.enter_succ (sound : Sound program limit fuel) {closure : Closure} {args : List Value}
    {location : Location} (fits : ClosureFits program world closure)
    (offered : AllOffered program world args) :
    Keeps program calls none world (Eval.enter limit (fuel + 1) closure args location)
      (fun later results => AllValid program later results) := by
  obtain ⟨package, context, fits, free, judged⟩ := fits
  obtain ⟨identity, name, ⟨signature, body, place⟩, captured⟩ := closure
  obtain ⟨⟨inhabit, named⟩, scope, enters, gets, judgedBody⟩ := judged
  -- What the function captured is not its own any more, so capturing it again changes nothing.
  rw [capture_of_not_own free] at gets judgedBody
  rw [addAll_append] at judgedBody
  obtain ⟨getsParams, getsResults⟩ := getsAll_append _ _ gets
  unfold Eval.enter
  dsimp only
  have depth : Keeps program calls none world Eval.depth (fun later _ => world = later) := .depth rfl
  refine depth.bind ?_
  rintro _ active _ rfl
  split
  · exact .fail trivial
  rename_i count
  have count : args.length = signature.params.length := by simpa using count
  split
  · exact .fail trivial
  refine Keeps.inScope fits enters fun later inner grows tail fitsInner => ?_
  have owned := Owned.enter enters context
  cases inner with
  | nil => exact nomatch fitsInner.layers
  | cons id outer =>
      refine (Keeps.bindParameters fitsInner owned getsParams count (offered.grows grows)).bind
        fun afterParams _ _ fitsParams => ?_
      have ownedParams := owned.addAll (signature.params.map (·.name))
      -- Results with names are variables of the same scope and start out as zero values.
      have results : Keeps program calls (some id) afterParams
          (Eval.bindResults (id :: outer) signature.resultNames signature.results)
          (fun last _ => Fits program last package
              ((((context.enter scope).addAll (signature.params.map (·.name)))).addAll
                signature.resultNames) (id :: outer) ∧
            (ResultsBound last id signature.resultNames signature.results ∨
              signature.resultNames = [])) := by
        rcases named with none | same
        · rw [none]
          exact .pure ⟨fitsParams, Or.inr rfl⟩
        · exact (Keeps.bindResults fitsParams ownedParams getsResults same inhabit).weaken
            fun _ _ _ both => ⟨both.1, Or.inl both.2⟩
      refine results.bind fun ready _ _ bound => ?_
      have ran : Keeps program (calls.push ⟨name, signature.results⟩) _ ready
          (Eval.statements limit fuel (id :: outer) body) _ :=
        sound.statements bound.1 (ownedParams.addAll signature.resultNames) judgedBody
      refine ran.inFrame.bind fun behind flow growsBody flows => ?_
      have boundBehind := bound.2.imp_left (ResultsBound.grows growsBody)
      refine (Keeps.resultsOf boundBehind rfl flows).bind fun last results growsLast valid => ?_
      split
      · rename_i same
        have good : ∀ store, Typed program last store →
            Good program last store (.returned ⟨identity, name, ⟨signature, body, place⟩, captured⟩ results) :=
          fun _ _ => valid.2 same
        refine (Keeps.meet good).bind ?_
        rintro _ _ _ rfl
        exact .pure valid.1
      · exact .fail trivial

end MiniGo.Running
