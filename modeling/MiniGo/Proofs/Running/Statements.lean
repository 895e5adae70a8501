import MiniGo.Proofs.Running.Evaluate

/-!
# Running statements keeps the invariant

The functions of the evaluator on statements, and with them `sound`: code whose names are resolved
keeps the invariant for every bound on its length.
-/

namespace MiniGo.Running

open Lexical

variable {program : Nat → Facts} {limit fuel : Nat} {calls : CallStack} {world : World}
  {package : Nat} {context : Context} {env : Env}

theorem Keeps.undeclaring {action : Eval Flow} (fits : Fits program world package context env)
    (keeps : Keeps program calls none world action
      (fun later flow => FlowFits program calls later flow)) :
    Keeps program calls env.head? world action (fun later flow =>
      Fits program later package context env ∧ FlowFits program calls later flow) := by
  have stays : Keeps program calls none world action (fun later flow =>
      Fits program later package context env ∧ FlowFits program calls later flow) :=
    keeps.weaken fun _ _ grows flows => ⟨fits.grows_none grows, flows⟩
  exact stays.widen _

/-! ## Declarations -/

theorem Sound.declare_succ (sound : Sound program limit fuel) {target : Env} {decl : ValueDecl}
    {top : Option ScopeId} {post : World → Unit → Prop}
    (fits : Fits program world package context env)
    (judged : Judged.exprs (program package) context decl.values)
    (inhabit : ∀ type, decl.type? = some type → Inhabits type)
    (binds : ∀ later values, Grows none world later → values.length = decl.names.length →
      AllValid program later values →
      (∀ type, decl.type? = some type → ∀ value ∈ values, value.conformsTo type = true) →
      Keeps program calls top later
        (Eval.bindValues target (!decl.isConst) decl.type? decl.names values) post) :
    Keeps program calls top world (Eval.declare limit (fuel + 1) env target decl) post := by
  unfold Eval.declare
  split
  · split
    · rename_i type declaredType
      rw [← declaredType]
      refine binds world _ (Grows.refl none world) (by simp) ?_ ?_
      · intro value member
        obtain ⟨_, _, rfl⟩ := List.mem_map.mp member
        exact valid_zero (inhabit type declaredType)
      · intro other same value member
        rw [declaredType] at same
        obtain rfl := Option.some.inj same
        obtain ⟨_, _, rfl⟩ := List.mem_map.mp member
        exact zero_conformsTo (inhabit type declaredType)
    · exact .fail trivial
  · refine (sound.values fits judged).seq fun later received grows valid => ?_
    split
    · rename_i count
      refine (Keeps.declaredValues valid).seq ?_
      rintro _ values _ ⟨rfl, same, validValues, conform⟩
      exact binds later values grows (same.trans count) validValues conform
    · exact .fail trivial

/-! ## Statements -/

theorem Sound.statements_succ (sound : Sound program limit fuel) {body : List Stmt}
    (fits : Fits program world package context env) (owned : Owned context)
    (judged : Judged.stmts (program package) context body) :
    Keeps program calls env.head? world (Eval.statements limit (fuel + 1) env body)
      (fun later flow => FlowFits program calls later flow) := by
  cases body with
  | nil => exact .pure trivial
  | cons first rest =>
      refine (sound.statement fits owned judged.1).bind fun later flow _ both => ?_
      cases flow with
      | normal => exact sound.statements both.1 (owned.addAll _) judged.2
      | _ => exact .pure both.2

theorem Sound.block_succ (sound : Sound program limit fuel) {body : List Stmt} {scope : Nat}
    (fits : Fits program world package context env)
    (enters : Enters (program package) context scope)
    (judged : Judged.stmts (program package) (context.enter scope) body) :
    Keeps program calls none world (Eval.block limit (fuel + 1) env body)
      (fun later flow => FlowFits program calls later flow) :=
  Keeps.inScope fits enters fun _ _ _ _ fitsInner =>
    sound.statements fitsInner (Owned.enter enters context) judged

theorem Sound.header_succ (sound : Sound program limit fuel) {init : Option Stmt}
    (fits : Fits program world package context env) (owned : Owned context)
    (judged : Judged.optionalStmt (program package) context init) :
    Keeps program calls env.head? world (Eval.header limit (fuel + 1) env init)
      (fun later _ => Fits program later package (context.addAll (declaredBy init)) env) := by
  cases init with
  | none => exact .pure fits
  | some init =>
      have judgedInit : Judged.stmt (program package) context init := judged
      refine (sound.statement fits owned judgedInit).bind fun _ _ _ both => ?_
      exact .pure both.1

theorem Sound.define_succ (sound : Sound program limit fuel) {names : List String}
    {values : List Expr} {location : Location} (fits : Fits program world package context env)
    (owned : Owned context)
    (judged : Judged.stmt (program package) context (.define names values location)) :
    Keeps program calls env.head? world
      (Eval.statement limit (fuel + 1) env (.define names values location))
      (fun later flow => Fits program later package (context.addAll names) env ∧
        FlowFits program calls later flow) := by
  obtain ⟨judgedValues, defines⟩ := judged
  refine (sound.values fits judgedValues).seq fun later received grows valid => ?_
  split
  · rename_i count
    refine (Keeps.defineValues (fits.grows_none grows) owned defines count valid).bind
      fun _ _ _ fitsLast => ?_
    exact .pure ⟨fitsLast, trivial⟩
  · exact .fail trivial

/-- An assignment with an operator reads and writes the same variable: what is evaluated in between
adds no names to the scopes around it. -/
theorem Sound.compound_succ (sound : Sound program limit fuel) {target : String} {op : BinaryOp}
    {value : Expr} {location : Location} (fits : Fits program world package context env)
    (judged : Judged.stmt (program package) context (.compound target op value location)) :
    Keeps program calls none world
      (Eval.statement limit (fuel + 1) env (.compound target op value location))
      (fun later flow => FlowFits program calls later flow) := by
  obtain ⟨judgedValue, used, arithmetic⟩ := judged
  refine (Keeps.lookup fits used).bind ?_
  rintro _ current _ ⟨rfl, leads⟩
  refine (sound.evaluate fits judgedValue).bind fun later operand grows valid => ?_
  have stored : ∀ right : Value, Keeps program calls none later
      (do
        let updated ← Eval.ofExcept (Value.binary op current right location)
        Eval.assign env target updated location
        pure .normal)
      (fun last flow => FlowFits program calls last flow) := by
    intro right
    have computes := binary_computes op current right location
    have computed : Keeps program calls none later
        (Eval.ofExcept (Value.binary op current right location))
        (fun last updated => later = last ∧ isScalar updated.kind = true ∧ updated.kind = current.kind) := by
      refine .ofExcept (fun updated result => ?_) (fun error result => ?_)
      · rw [result] at computes
        exact ⟨rfl, computes.1, computes.2 arithmetic⟩
      · rw [result] at computes
        exact computes.excused
    refine computed.bind ?_
    rintro _ updated _ ⟨rfl, scalar, kind⟩
    refine (Keeps.assign (fits.grows_none grows) used (valid_of_scalar scalar)
      fun id kind' mutable found => ?_).bind fun _ _ _ _ => .pure trivial
    rw [grows.find? fits.old] at found
    obtain ⟨other, slot, foundToo, _, leads⟩ := leads
    cases found.symm.trans foundToo
    exact kind.trans leads.1
  dsimp only
  cases current with
  | float => exact stored _
  | _ => exact stored _

theorem Sound.step_succ (limit fuel : Nat) {target : String} {up : Bool} {location : Location}
    (fits : Fits program world package context env)
    (judged : Judged.stmt (program package) context (.step target up location)) :
    Keeps program calls none world
      (Eval.statement limit (fuel + 1) env (.step target up location))
      (fun later flow => FlowFits program calls later flow) := by
  have used : Used (program package) context target location .value := judged
  refine (Keeps.lookup fits used).bind ?_
  rintro _ current _ ⟨rfl, leads⟩
  refine Keeps.stepped.bind fun later updated grows result => ?_
  refine (Keeps.assign (fits.grows_none grows) used result.2 fun id kind mutable found => ?_).bind
    fun _ _ _ _ => .pure trivial
  rw [grows.find? fits.old] at found
  obtain ⟨other, slot, foundToo, _, leads⟩ := leads
  cases found.symm.trans foundToo
  exact result.1.trans leads.1

theorem Sound.loop_succ (sound : Sound program limit fuel) {init post : Option Stmt}
    {guard : Option Expr} {body : List Stmt} {location : Location}
    (fits : Fits program world package context env)
    (judged : Judged.stmt (program package) context (.loop init guard post body location)) :
    Keeps program calls none world
      (Eval.statement limit (fuel + 1) env (.loop init guard post body location))
      (fun later flow => FlowFits program calls later flow) := by
  obtain ⟨scope, enters, judgedInit, judgedGuard, judgedPost, silent, block, entersBlock, judgedBody⟩ :=
    judged
  refine Keeps.inScope fits enters fun _ inner _ _ fitsInner => ?_
  have owned := Owned.enter enters context
  refine (sound.header fitsInner owned judgedInit).bind fun _ _ _ fitsBehind => ?_
  exact sound.rounds fitsBehind (owned.addAll _) judgedGuard judgedPost silent entersBlock judgedBody

theorem Sound.switch_stmt_succ (sound : Sound program limit fuel) {init : Option Stmt}
    {tag : Option Expr} {cases : List SwitchCase} {location : Location}
    (fits : Fits program world package context env)
    (judged : Judged.stmt (program package) context (.switch init tag cases location)) :
    Keeps program calls none world
      (Eval.statement limit (fuel + 1) env (.switch init tag cases location))
      (fun later flow => FlowFits program calls later flow) := by
  obtain ⟨scope, enters, judgedInit, judgedTag, judgedCases⟩ := judged
  refine Keeps.inScope fits enters fun _ inner _ _ fitsInner => ?_
  refine (sound.header fitsInner (Owned.enter enters context) judgedInit).bind fun _ _ _ fitsBehind => ?_
  exact (sound.switch fitsBehind judgedTag judgedCases).widen _

theorem Sound.statement_succ (sound : Sound program limit fuel) {stmt : Stmt}
    (fits : Fits program world package context env) (owned : Owned context)
    (judged : Judged.stmt (program package) context stmt) :
    Keeps program calls env.head? world (Eval.statement limit (fuel + 1) env stmt)
      (fun later flow => Fits program later package (context.addAll (declared stmt)) env ∧
        FlowFits program calls later flow) := by
  cases stmt with
  | declare decl =>
      obtain ⟨isConst, names, type?, values, location⟩ := decl
      obtain ⟨judgedValues, inhabit, gets⟩ := judged
      have declares : Keeps program calls env.head? world
          (Eval.declare limit fuel env env ⟨isConst, names, type?, values, location⟩)
          (fun later _ => Fits program later package (context.addAll names) env) :=
        sound.declare fits judgedValues inhabit fun _ _ grows count valid conform =>
          Keeps.bindValues (fits.grows_none grows) owned gets count valid conform
      exact declares.bind fun _ _ _ fitsLast => .pure ⟨fitsLast, trivial⟩
  | define names values location => exact sound.define_succ fits owned judged
  | assign targets values location =>
      obtain ⟨judgedValues, assigned⟩ := judged
      refine Keeps.undeclaring fits ((sound.values fits judgedValues).bind fun _ _ grows valid => ?_)
      split
      · exact (Keeps.storeValues (fits.grows_none grows) assigned valid).bind
          fun _ _ _ _ => .pure trivial
      · exact .fail trivial
  | compound => exact Keeps.undeclaring fits (sound.compound_succ fits judged)
  | step => exact Keeps.undeclaring fits (Sound.step_succ limit fuel fits judged)
  | ifElse found => exact Keeps.undeclaring fits (sound.conditional fits judged)
  | loop => exact Keeps.undeclaring fits (sound.loop_succ fits judged)
  | switch => exact Keeps.undeclaring fits (sound.switch_stmt_succ fits judged)
  | «return» values location => exact Keeps.undeclaring fits (sound.returning fits judged)
  | «break» | «continue» => exact .pure ⟨fits, trivial⟩
  | block body =>
      obtain ⟨scope, enters, judgedBody⟩ := judged
      exact Keeps.undeclaring fits (sound.block fits enters judgedBody)
  | expression expr =>
      have judgedExpr : Judged.expr (program package) context expr := judged
      cases expr with
      | call callee args location =>
          exact Keeps.undeclaring fits ((sound.call fits judgedExpr.1 judgedExpr.2).bind
            fun _ _ _ _ => .pure trivial)
      | _ =>
          exact Keeps.undeclaring fits ((sound.evaluate fits judgedExpr).bind
            fun _ _ _ _ => .pure trivial)

/-! ## Conditions and loops -/

theorem Sound.conditional_succ (sound : Sound program limit fuel) {found : IfStmt}
    (fits : Fits program world package context env)
    (judged : Judged.ifStmt (program package) context found) :
    Keeps program calls none world (Eval.conditional limit (fuel + 1) env found)
      (fun later flow => FlowFits program calls later flow) := by
  obtain ⟨init, condition, body, orElse, location⟩ := found
  obtain ⟨scope, enters, judgedInit, judgedCondition, ⟨block, entersBlock, judgedBody⟩, judgedElse⟩ := judged
  refine Keeps.inScope fits enters fun _ inner _ _ fitsInner => ?_
  refine (sound.header fitsInner (Owned.enter enters context) judgedInit).bind fun _ _ _ fitsBehind => ?_
  refine (sound.condition fitsBehind judgedCondition).seq fun _ outcome grows _ => ?_
  have fitsHere := fitsBehind.grows_none grows
  cases outcome with
  | true => exact (sound.block fitsHere entersBlock judgedBody).widen _
  | false =>
      cases orElse with
      | absent => exact .pure trivial
      | block other =>
          obtain ⟨elseBlock, entersElse, judgedOther⟩ := judgedElse
          exact (sound.block fitsHere entersElse judgedOther).widen _
      | chain next => exact (sound.conditional fitsHere judgedElse).widen _

theorem Sound.proceeds_succ (sound : Sound program limit fuel) {guard : Option Expr}
    {location : Location} (fits : Fits program world package context env)
    (judged : Judged.optionalExpr (program package) context guard) :
    Keeps program calls none world (Eval.proceeds limit (fuel + 1) env guard location)
      (fun _ _ => True) := by
  cases guard with
  | none => exact .pure trivial
  | some expr => exact sound.condition fits judged

theorem Sound.rounds_succ (sound : Sound program limit fuel) {guard : Option Expr}
    {post : Option Stmt} {body : List Stmt} {location : Location} {scope : Nat}
    (fits : Fits program world package context env) (owned : Owned context)
    (judgedGuard : Judged.optionalExpr (program package) context guard)
    (judgedPost : Judged.optionalStmt (program package) context post)
    (silent : declaredBy post = [])
    (enters : Enters (program package) context scope)
    (judgedBody : Judged.stmts (program package) (context.enter scope) body) :
    Keeps program calls env.head? world
      (Eval.rounds limit (fuel + 1) env guard post body location)
      (fun later flow => FlowFits program calls later flow) := by
  refine (sound.proceeds fits judgedGuard).seq fun _ goesOn grows _ => ?_
  have fitsHere := fits.grows_none grows
  cases goesOn with
  | false => exact .pure trivial
  | true =>
      refine (sound.block fitsHere enters judgedBody).seq fun later flow growsBody flows => ?_
      have again : Keeps program calls env.head? later (do
          Eval.header limit fuel env post
          Eval.rounds limit fuel env guard post body location)
          (fun later flow => FlowFits program calls later flow) := by
        refine (sound.header (fitsHere.grows_none growsBody) owned judgedPost).bind
          fun _ _ _ fitsNext => ?_
        rw [silent] at fitsNext
        exact sound.rounds fitsNext owned judgedGuard judgedPost silent enters judgedBody
      cases flow with
      | normal => exact again
      | «break» => exact .pure trivial
      | «continue» => exact again
      | «return» values => exact .pure flows

/-! ## Switches -/

theorem judged_case {facts : Facts} {cases : List SwitchCase} {found : SwitchCase}
    (judged : Judged.cases facts context cases) (member : found ∈ cases) :
    ∃ block, Enters facts context block ∧ Judged.stmts facts (context.enter block) found.body := by
  induction cases with
  | nil => cases member
  | cons first rest ih =>
      obtain ⟨label, body, location⟩ := first
      obtain ⟨_, here, others⟩ := judged
      cases member with
      | head => exact here
      | tail _ member => exact ih others member

theorem Sound.switch_succ (sound : Sound program limit fuel) {tag : Option Expr}
    {cases : List SwitchCase} (fits : Fits program world package context env)
    (judgedTag : Judged.optionalExpr (program package) context tag)
    (judged : Judged.cases (program package) context cases) :
    Keeps program calls none world (Eval.switch limit (fuel + 1) env tag cases)
      (fun later flow => FlowFits program calls later flow) := by
  refine (sound.tagValue fits judgedTag).bind fun _ tagged grows _ => ?_
  have fitsTag := fits.grows_none grows
  refine (sound.select fitsTag judged).bind fun _ selected growsSelect inside => ?_
  have fitsHere := fitsTag.grows_none growsSelect
  cases chosen : selected.or (Eval.defaultCase cases) with
  | none => exact .pure trivial
  | some found =>
      have member := Eval.mem_of_chosen inside chosen
      obtain ⟨block, enters, judgedBody⟩ := judged_case judged member
      refine (sound.block fitsHere enters judgedBody).bind fun _ flow _ flows => ?_
      cases flow with
      | «break» => exact .pure trivial
      | _ => exact .pure flows

theorem Sound.tagValue_succ (sound : Sound program limit fuel) {tag : Option Expr}
    (fits : Fits program world package context env)
    (judged : Judged.optionalExpr (program package) context tag) :
    Keeps program calls none world (Eval.tagValue limit (fuel + 1) env tag) (fun _ _ => True) := by
  cases tag with
  | none => exact .pure trivial
  | some expr =>
      have judgedExpr : Judged.expr (program package) context expr := judged
      exact (sound.evaluate fits judgedExpr).bind fun _ _ _ _ => .pure trivial

theorem Sound.select_succ (sound : Sound program limit fuel) {tagged : Option (Value × Expr)}
    {cases : List SwitchCase} (fits : Fits program world package context env)
    (judged : Judged.cases (program package) context cases) :
    Keeps program calls none world (Eval.select limit (fuel + 1) env tagged cases)
      (fun _ found => ∀ selected, found = some selected → selected ∈ cases) := by
  cases cases with
  | nil => exact .pure nofun
  | cons first rest =>
      obtain ⟨label, body, location⟩ := first
      obtain ⟨judgedLabel, _, judgedRest⟩ := judged
      have others : ∀ later, Grows none world later →
          Keeps program calls none later (Eval.select limit fuel env tagged rest)
            (fun _ found => ∀ selected, found = some selected →
              selected ∈ ⟨label, body, location⟩ :: rest) :=
        fun later grows => (sound.select (fits.grows_none grows) judgedRest).weaken
          fun _ _ _ inside selected same => List.mem_cons_of_mem _ (inside selected same)
      cases label with
      | otherwise => exact others world (Grows.refl none world)
      | values exprs =>
          have judgedValues : Judged.exprs (program package) context exprs := judgedLabel
          refine (sound.anyMatches fits judgedValues).bind fun later matched grows _ => ?_
          cases matched with
          | true =>
              refine .pure ?_
              rintro _ ⟨⟩
              exact List.mem_cons_self
          | false => exact others later grows

theorem Sound.anyMatches_succ (sound : Sound program limit fuel) {tagged : Option (Value × Expr)}
    {location : Location} {exprs : List Expr} (fits : Fits program world package context env)
    (judged : Judged.exprs (program package) context exprs) :
    Keeps program calls none world (Eval.anyMatches limit (fuel + 1) env tagged location exprs)
      (fun _ _ => True) := by
  cases exprs with
  | nil => exact .pure trivial
  | cons expr rest =>
      refine (sound.caseMatches fits judged.1).bind fun _ matched grows _ => ?_
      cases matched with
      | true => exact .pure trivial
      | false => exact sound.anyMatches (fits.grows_none grows) judged.2

theorem Sound.caseMatches_succ (sound : Sound program limit fuel) {tagged : Option (Value × Expr)}
    {location : Location} {expr : Expr} (fits : Fits program world package context env)
    (judged : Judged.expr (program package) context expr) :
    Keeps program calls none world (Eval.caseMatches limit (fuel + 1) env tagged location expr)
      (fun _ _ => True) := by
  cases tagged with
  | none => exact sound.condition fits judged
  | some pair =>
      refine (sound.evaluate fits judged).bind fun _ candidate _ _ => ?_
      exact .ofExcept (fun _ _ => trivial) (fun _ result => (equals_operational result).excused)

/-! ## Returning -/

theorem Sound.returning_succ (sound : Sound program limit fuel) {exprs : List Expr}
    {location : Location} (fits : Fits program world package context env)
    (judged : Judged.exprs (program package) context exprs) :
    Keeps program calls none world (Eval.returning limit (fuel + 1) env exprs location)
      (fun later flow => FlowFits program calls later flow) := by
  cases exprs with
  | nil => exact .pure (Or.inl rfl)
  | cons expr rest =>
      have frame : Keeps program calls none world Eval.frame?
          (fun later found => world = later ∧ found = calls.frames.head?) := .frame? ⟨rfl, rfl⟩
      refine frame.bind ?_
      rintro _ _ _ ⟨rfl, rfl⟩
      refine (sound.values fits judged).bind fun later received _ valid => ?_
      split
      · rename_i count
        refine (Keeps.returnedValues valid count).bind ?_
        rintro _ results _ ⟨rfl, conform, validResults⟩
        exact .pure (Or.inr ⟨conform, validResults⟩)
      · exact .fail trivial

/-! ## All of it -/

theorem Sound.succ (sound : Sound program limit fuel) : Sound program limit (fuel + 1) where
  evaluate fits judged := sound.evaluate_succ fits judged
  condition fits judged := sound.condition_succ fits judged
  values fits judged := sound.values_succ fits judged
  eachValue fits judged := sound.eachValue_succ fits judged
  call fits judgedCallee judgedArgs := sound.call_succ fits judgedCallee judgedArgs
  apply valid validArgs := sound.apply_succ valid validArgs
  enter fits validArgs := sound.enter_succ fits validArgs
  statements fits owned judged := sound.statements_succ fits owned judged
  block fits enters judged := sound.block_succ fits enters judged
  header fits owned judged := sound.header_succ fits owned judged
  statement fits owned judged := sound.statement_succ fits owned judged
  conditional fits judged := sound.conditional_succ fits judged
  rounds fits owned judgedGuard judgedPost silent enters judgedBody :=
    sound.rounds_succ fits owned judgedGuard judgedPost silent enters judgedBody
  proceeds fits judged := sound.proceeds_succ fits judged
  switch fits judgedTag judged := sound.switch_succ fits judgedTag judged
  tagValue fits judged := sound.tagValue_succ fits judged
  select fits judged := sound.select_succ fits judged
  anyMatches fits judged := sound.anyMatches_succ fits judged
  caseMatches fits judged := sound.caseMatches_succ fits judged
  returning fits judged := sound.returning_succ fits judged
  declare fits judged inhabit binds := sound.declare_succ fits judged inhabit binds

/-- Code whose names are resolved keeps the invariant, whatever the bound on its length. -/
theorem sound (program : Nat → Facts) (limit fuel : Nat) : Sound program limit fuel := by
  induction fuel with
  | zero => exact sound_zero
  | succ fuel ih => exact ih.succ

end MiniGo.Running
