import MiniGo.Proofs.Package.Workspaces
import MiniGo.Proofs.Running.Counting

/-!
# Where control leaves code

A body that the checker accepts has its jumps in place: a `break` stands in a loop or a switch, and a
`continue` in a loop. A run of such code leaves it by a jump only to a loop or a switch around it, and
does not come to the end of a terminating statement. So the body of a function is never left by a jump,
and when the function has results its end is not reached.
-/

namespace MiniGo.Running

open Lexical

variable {imports : Interfaces} {limit fuel : Nat} {env : Env}

/-! ## Jumps in place -/

namespace Placed

mutual

/-- The jumps of a statement have the loop or the switch that they leave around them. -/
def stmt (body : Check.Body) : Stmt → Prop
  | .break _ => body.inBreakable = true
  | .continue _ => body.inLoop = true
  | .block inner => stmts body inner
  | .ifElse found => ifStmt body found
  | .loop _ _ _ inner _ => stmts body.inside inner
  | .switch _ _ found _ => cases body found
  | _ => True

def stmts (body : Check.Body) : List Stmt → Prop
  | [] => True
  | first :: rest => stmt body first ∧ stmts body rest

def ifStmt (body : Check.Body) : IfStmt → Prop
  | ⟨_, _, inner, orElse, _⟩ => stmts body inner ∧ elseBranch body orElse

/-- The jumps in what follows the body of a conditional statement are in place. -/
def elseBranch (body : Check.Body) : ElseBranch → Prop
  | .absent => True
  | .block inner => stmts body inner
  | .chain next => ifStmt body next

/-- The jumps of cases are in place; a `break` leaves the switch of the case. -/
def cases (body : Check.Body) : List SwitchCase → Prop
  | [] => True
  | ⟨_, inner, _⟩ :: rest => stmts body.insideCase inner ∧ cases body rest

end

theorem of_mem_cases {body : Check.Body} {found : List SwitchCase} (placed : cases body found) :
    ∀ one ∈ found, stmts body.insideCase one.body := by
  induction found with
  | nil => exact fun _ member => absurd member List.not_mem_nil
  | cons first rest ih =>
      obtain ⟨label, inner, location⟩ := first
      exact List.forall_mem_cons.mpr ⟨placed.1, ih placed.2⟩

end Placed

/-! ## Checks -/

/-- A check passes only if a fact about the code holds. -/
def Demands (check : Check α) (fact : Prop) : Prop :=
  ∀ table outcome after, check table = .ok (outcome, after) → fact

namespace Demands

variable {check : Check α} {next : α → Check β} {one two : Prop}

theorem none : Demands check True := fun _ _ _ _ => trivial

theorem bind (first : Demands check one) (second : ∀ value, Demands (next value) two) :
    Demands (check >>= next) (one ∧ two) := by
  intro table outcome after ran
  obtain ⟨value, between, before, behind⟩ := bind_ok ran
  exact ⟨first _ _ _ before, second value _ _ _ behind⟩

theorem behind (second : ∀ value, Demands (next value) two) : Demands (check >>= next) two :=
  fun table outcome after ran => ((none.bind second) table outcome after ran).2

theorem inScope {kind : BlockKind} (demands : Demands check one) : Demands (Check.inScope kind check) one := by
  intro table outcome after ran
  obtain ⟨inner, checked, _⟩ := inScope_ok ran
  exact demands _ _ _ checked

theorem require {holds : Bool} {error : ResolutionError} : Demands (Check.require holds error) (holds = true) :=
  fun _ _ _ ran => (require_ok ran).1

end Demands

mutual

theorem statement_placed : (body : Check.Body) → (found : Stmt) →
    Demands (Check.statement imports body found) (Placed.stmt body found)
  | body, .ifElse found => by
      unfold Check.statement
      exact conditional_placed body found
  | body, .loop _ _ _ inner _ => by
      unfold Check.statement
      exact (Demands.behind fun _ => .behind fun _ => .behind fun _ =>
        (statements_placed body.inside inner).inScope).inScope
  | body, .switch _ _ found _ => by
      unfold Check.statement
      exact (Demands.behind fun _ => .behind fun _ => cases_placed body found).inScope
  | _, .break _ | _, .continue _ => by
      unfold Check.statement
      exact .require
  | body, .block inner => by
      unfold Check.statement
      exact (statements_placed body inner).inScope
  | _, .declare _ | _, .define .. | _, .assign .. | _, .compound .. | _, .step .. | _, .return .. |
    _, .expression _ => .none

theorem statements_placed : (body : Check.Body) → (found : List Stmt) →
    Demands (Check.statements imports body found) (Placed.stmts body found)
  | _, [] => .none
  | body, first :: rest => by
      unfold Check.statements
      exact (statement_placed body first).bind fun _ => statements_placed body rest

theorem conditional_placed : (body : Check.Body) → (found : IfStmt) →
    Demands (Check.conditional imports body found) (Placed.ifStmt body found)
  | body, ⟨_, _, inner, orElse, _⟩ => by
      unfold Check.conditional
      exact (Demands.behind fun _ => .behind fun _ => .behind fun _ =>
        (statements_placed body inner).inScope.bind fun _ => elseBranch_placed body orElse).inScope

theorem elseBranch_placed : (body : Check.Body) → (found : ElseBranch) →
    Demands (Check.elseBranch imports body found) (Placed.elseBranch body found)
  | _, .absent => .none
  | body, .block inner => by
      unfold Check.elseBranch
      exact (statements_placed body inner).inScope
  | body, .chain next => by
      unfold Check.elseBranch
      exact conditional_placed body next

theorem cases_placed : (body : Check.Body) → (found : List SwitchCase) →
    Demands (Check.cases imports body found) (Placed.cases body found)
  | _, [] => .none
  | body, ⟨_, inner, _⟩ :: rest => by
      unfold Check.cases
      exact .behind fun _ => (statements_placed body.insideCase inner).inScope.bind fun _ =>
        cases_placed body rest

end

/-- In a function that passes the checks all jumps are in place, and if it has results its body is
terminating. -/
theorem function_placed (name : String) (isLiteral : Bool) (literal : FunctionLiteral) :
    Demands (Check.function imports name isLiteral literal)
      (Placed.stmts (.ofFunction name literal.signature) literal.body ∧
        (literal.signature.results.isEmpty || isTerminatingList literal.body) = true) := by
  obtain ⟨signature, body, location⟩ := literal
  have walked : Demands (do
      Check.inScope (.function name) do
        Check.declareParameters location signature.params
        Check.declareResults location signature.resultNames signature.results
        Check.statements imports (.ofFunction name signature) body
      Check.require (signature.results.isEmpty || isTerminatingList body) (.missingReturn name location))
      (Placed.stmts (.ofFunction name signature) body ∧
        (signature.results.isEmpty || isTerminatingList body) = true) :=
    (Demands.behind fun _ => .behind fun _ =>
      statements_placed (.ofFunction name signature) body).inScope.bind fun _ => .require
  unfold Check.function
  split
  · exact .behind fun _ => walked
  · exact walked

/-! ## Runs -/

/-- A computation that comes to an end gives a result of which `post` holds. -/
def Ends (action : Eval α) (post : α → Prop) : Prop :=
  ∀ machine value after, action machine = .ok value after → post value

namespace Ends

variable {post : α → Prop} {last : β → Prop} {action : Eval α} {next : α → Eval β}

theorem pure {value : α} (holds : post value) : Ends (Pure.pure value) post := by
  intro machine found after ran
  obtain ⟨rfl, _⟩ := EStateM.Result.ok.inj ran
  exact holds

theorem halted {halt : Halt} : Ends (fun machine => .error halt machine) post := fun _ _ _ ran => nomatch ran

theorem bind (first : Ends action post) (rest : ∀ value, post value → Ends (next value) last) :
    Ends (action >>= next) last := by
  intro machine found after ran
  change EStateM.bind action next machine = .ok found after at ran
  unfold EStateM.bind at ran
  cases outcome : action machine with
  | error halt between =>
      rw [outcome] at ran
      exact nomatch ran
  | ok value between =>
      rw [outcome] at ran
      exact rest value (first machine value between outcome) between found after ran

theorem seq (rest : ∀ value, Ends (next value) last) : Ends (action >>= next) last :=
  bind (fun _ _ _ _ => trivial : Ends action fun _ => True) fun value _ => rest value

theorem weaken {other : α → Prop} (ends : Ends action post) (imp : ∀ value, post value → other value) :
    Ends action other := fun machine value after ran => imp value (ends machine value after ran)

end Ends

/-- A way to leave statements with their jumps in place: their end is reached only if they are not
`terminating`, and by a `break` they are left only if they have one. -/
def Exits (body : Check.Body) (breaks terminating : Bool) : Flow → Prop
  | .normal => terminating = false
  | .break => body.inBreakable = true ∧ breaks = true
  | .continue => body.inLoop = true
  | .return _ => True

theorem Exits.widen {body : Check.Body} {breaks terminating breaks' terminating' : Bool} {flow : Flow}
    (exits : Exits body breaks terminating flow) (more : breaks = true → breaks' = true)
    (less : terminating = false → terminating' = false) : Exits body breaks' terminating' flow := by
  cases flow with
  | normal => exact less exits
  | «break» => exact ⟨exits.1, more exits.2⟩
  | «continue» => exact exits
  | «return» values => exact exits

/-- Code with its jumps in place is left as they allow, run with a bound on its length. -/
structure Leaving (limit fuel : Nat) : Prop where
  statement : ∀ {env body stmt}, Placed.stmt body stmt →
    Ends (Eval.statement limit fuel env stmt) (Exits body stmt.breaksOut stmt.isTerminating)
  statements : ∀ {env body stmts}, Placed.stmts body stmts →
    Ends (Eval.statements limit fuel env stmts) (Exits body (breaksOutAny stmts) (isTerminatingList stmts))
  block : ∀ {env body stmts}, Placed.stmts body stmts →
    Ends (Eval.block limit fuel env stmts) (Exits body (breaksOutAny stmts) (isTerminatingList stmts))
  conditional : ∀ {env body found}, Placed.ifStmt body found →
    Ends (Eval.conditional limit fuel env found) (Exits body found.breaksOut found.isTerminating)
  rounds : ∀ {env body guard post inner location}, Placed.stmts (Check.Body.inside body) inner →
    Ends (Eval.rounds limit fuel env guard post inner location)
      (Exits body false (guard.isNone && !breaksOutAny inner))
  switch : ∀ {env body tag cases}, Placed.cases body cases →
    Ends (Eval.switch limit fuel env tag cases)
      (Exits body false (cases.any SwitchCase.isDefault && isTerminatingCases cases))

theorem leaving_zero : Leaving limit 0 where
  statement _ := .halted
  statements _ := .halted
  block _ := .halted
  conditional _ := .halted
  rounds _ := .halted
  switch _ := .halted

/-! ### Statements -/

theorem returning_returns {exprs : List Expr} {location : Location} :
    Ends (Eval.returning limit fuel env exprs location) fun flow => ∃ values, flow = .return values := by
  cases fuel with
  | zero => exact .halted
  | succ fuel =>
      cases exprs with
      | nil => exact .pure ⟨_, rfl⟩
      | cons first rest =>
          refine .seq fun frame => .seq fun received => ?_
          split
          · exact .seq fun values => .pure ⟨values, rfl⟩
          · exact .halted

theorem Leaving.statements_succ (leaving : Leaving limit fuel) {body : Check.Body} {stmts : List Stmt}
    (placed : Placed.stmts body stmts) :
    Ends (Eval.statements limit (fuel + 1) env stmts)
      (Exits body (breaksOutAny stmts) (isTerminatingList stmts)) := by
  cases stmts with
  | nil => exact .pure rfl
  | cons first rest =>
      refine (leaving.statement placed.1).bind fun flow exits => ?_
      have breaks : breaksOutAny (first :: rest) = (first.breaksOut || breaksOutAny rest) := rfl
      cases flow with
      | normal =>
          have next : first.isTerminating = false := exits
          refine (leaving.statements placed.2).weaken fun flow exitsRest => ?_
          refine exitsRest.widen (fun rest => ?_) (terminating_cons next)
          rw [breaks, rest, Bool.or_true]
      | «break» => exact .pure ⟨exits.1, by rw [breaks, exits.2, Bool.true_or]⟩
      | «continue» => exact .pure exits
      | «return» values => exact .pure exits

theorem Leaving.conditional_succ (leaving : Leaving limit fuel) {body : Check.Body} {found : IfStmt}
    (placed : Placed.ifStmt body found) :
    Ends (Eval.conditional limit (fuel + 1) env found) (Exits body found.breaksOut found.isTerminating) := by
  obtain ⟨init, condition, inner, orElse, location⟩ := found
  obtain ⟨placedInner, placedElse⟩ := placed
  refine .seq fun scope => .seq fun _ => .seq fun outcome => ?_
  cases outcome with
  | true =>
      refine (leaving.block placedInner).weaken fun flow exits => exits.widen ?_ ?_
      · exact fun taken => Bool.or_eq_true_iff.mpr (Or.inl taken)
      · exact fun reached => Bool.and_eq_false_iff.mpr (Or.inl reached)
  | false =>
      have widen : ∀ flow, Exits body orElse.breaksOut orElse.isTerminating flow →
          Exits body (IfStmt.breaksOut ⟨init, condition, inner, orElse, location⟩)
            (IfStmt.isTerminating ⟨init, condition, inner, orElse, location⟩) flow :=
        fun _ exits => exits.widen (fun taken => Bool.or_eq_true_iff.mpr (Or.inr taken))
          fun reached => Bool.and_eq_false_iff.mpr (Or.inr reached)
      cases orElse with
      | absent => exact .pure (widen .normal rfl)
      | block other => exact (leaving.block placedElse).weaken widen
      | chain next => exact (leaving.conditional placedElse).weaken widen

/-! ### Loops and switches -/

theorem proceeds_endless {location : Location} :
    Ends (Eval.proceeds limit fuel env none location) fun goes => goes = true := by
  cases fuel with
  | zero => exact .halted
  | succ fuel => exact .pure rfl

theorem Leaving.rounds_succ (leaving : Leaving limit fuel) {body : Check.Body} {guard : Option Expr}
    {post : Option Stmt} {inner : List Stmt} {location : Location}
    (placed : Placed.stmts body.inside inner) :
    Ends (Eval.rounds limit (fuel + 1) env guard post inner location)
      (Exits body false (guard.isNone && !breaksOutAny inner)) := by
  have goes : Ends (Eval.proceeds limit fuel env guard location) fun goes => goes = true ∨ guard.isNone = false := by
    cases guard with
    | none => exact proceeds_endless.weaken fun _ => Or.inl
    | some expr => exact fun _ _ _ _ => Or.inr rfl
  refine goes.bind fun goes endless => ?_
  cases goes with
  | false => exact .pure (Bool.and_eq_false_iff.mpr (Or.inl (endless.resolve_left Bool.false_ne_true)))
  | true =>
      have again : Ends (do
          Eval.header limit fuel env post
          Eval.rounds limit fuel env guard post inner location)
          (Exits body false (guard.isNone && !breaksOutAny inner)) :=
        .seq fun _ => leaving.rounds placed
      refine (leaving.block placed).bind fun flow exits => ?_
      cases flow with
      | normal => exact again
      | «continue» => exact again
      | «break» =>
          refine .pure (Bool.and_eq_false_iff.mpr (Or.inr ?_))
          rw [exits.2]
          rfl
      | «return» values => exact .pure trivial

theorem select_mem {tagged : Option (Value × Expr)} {cases : List SwitchCase} :
    Ends (Eval.select limit fuel env tagged cases) fun selected => ∀ found, selected = some found → found ∈ cases := by
  induction fuel generalizing cases with
  | zero => exact .halted
  | succ fuel ih =>
      cases cases with
      | nil => exact .pure fun _ none => by cases none
      | cons first rest =>
          obtain ⟨label, inner, location⟩ := first
          have others : Ends (Eval.select limit fuel env tagged rest) fun selected =>
              ∀ found, selected = some found → found ∈ ⟨label, inner, location⟩ :: rest :=
            ih.weaken fun _ inside found same => List.mem_cons_of_mem _ (inside found same)
          cases label with
          | otherwise => exact others
          | values exprs =>
              refine .seq fun matched => ?_
              cases matched with
              | true =>
                  refine .pure ?_
                  rintro _ ⟨⟩
                  exact List.mem_cons_self
              | false => exact others

theorem Leaving.switch_succ (leaving : Leaving limit fuel) {body : Check.Body} {tag : Option Expr}
    {cases : List SwitchCase} (placed : Placed.cases body cases) :
    Ends (Eval.switch limit (fuel + 1) env tag cases)
      (Exits body false (cases.any SwitchCase.isDefault && isTerminatingCases cases)) := by
  refine .seq fun tagged => select_mem.bind fun selected inside => ?_
  cases chosen : selected.or (Eval.defaultCase cases) with
  | none => exact .pure (Bool.and_eq_false_iff.mpr (Or.inl (no_default chosen)))
  | some found =>
      have member := Eval.mem_of_chosen inside chosen
      refine (leaving.block (Placed.of_mem_cases placed found member)).bind fun flow exits => ?_
      cases flow with
      | normal => exact .pure (not_terminating_of_left member (Or.inl exits))
      | «break» => exact .pure (not_terminating_of_left member (Or.inr exits.2))
      | «continue» => exact .pure exits
      | «return» values => exact .pure trivial

theorem Leaving.statement_succ (leaving : Leaving limit fuel) {body : Check.Body} {stmt : Stmt}
    (placed : Placed.stmt body stmt) :
    Ends (Eval.statement limit (fuel + 1) env stmt) (Exits body stmt.breaksOut stmt.isTerminating) := by
  cases stmt with
  | declare decl => exact .seq fun _ => .pure rfl
  | define names exprs location | assign names exprs location =>
      refine .seq fun received => ?_
      split
      · exact .seq fun _ => .pure rfl
      · exact .halted
  | compound target op expr location =>
      exact .seq fun _ => .seq fun _ => .seq fun _ => .seq fun _ => .pure rfl
  | step target up location => exact .seq fun _ => .seq fun _ => .seq fun _ => .pure rfl
  | ifElse found => exact leaving.conditional placed
  | loop init guard post inner location =>
      refine .seq fun scope => .seq fun _ => (leaving.rounds placed).weaken fun flow exits => ?_
      refine exits.widen (fun breaks => by cases breaks) fun reached => ?_
      cases guard with
      | none => exact reached
      | some expr => rfl
  | switch init tag found location => exact .seq fun scope => .seq fun _ => leaving.switch placed
  | «return» exprs location =>
      refine returning_returns.weaken ?_
      rintro _ ⟨values, rfl⟩
      trivial
  | «break» location => exact .pure ⟨placed, rfl⟩
  | «continue» location => exact .pure placed
  | block inner => exact leaving.block placed
  | expression expr => cases expr <;> exact .seq fun _ => .pure rfl

theorem Leaving.succ (leaving : Leaving limit fuel) : Leaving limit (fuel + 1) where
  statement := leaving.statement_succ
  statements := leaving.statements_succ
  block placed := .seq fun _ => leaving.statements placed
  conditional := leaving.conditional_succ
  rounds := leaving.rounds_succ
  switch := leaving.switch_succ

theorem leaving (limit fuel : Nat) : Leaving limit fuel := by
  induction fuel with
  | zero => exact leaving_zero
  | succ fuel ih => exact ih.succ

/-! ## Functions -/

/-- The body of a function that passes the checks is never left by a `break` or a `continue`, and if the
function has results then only by a `return`. -/
theorem body_left_by_return {name : String} {isLiteral : Bool} {literal : FunctionLiteral}
    {table checked : SymbolTable} {machine after : Machine} {flow : Flow}
    (accepted : Check.function imports name isLiteral literal table = .ok ((), checked))
    (ran : Eval.statements limit fuel env literal.body machine = .ok flow after) :
    flow ≠ .break ∧ flow ≠ .continue ∧
      (literal.signature.results ≠ [] → ∃ values, flow = .return values) := by
  obtain ⟨placed, ends⟩ := function_placed name isLiteral literal table () checked accepted
  have exits := (leaving limit fuel).statements placed machine flow after ran
  cases flow with
  | normal =>
      have reached : isTerminatingList literal.body = false := exits
      refine ⟨nofun, nofun, fun some => absurd ?_ some⟩
      rw [reached, Bool.or_false] at ends
      exact List.isEmpty_iff.mp ends
  | «break» => exact absurd exits.1 Bool.false_ne_true
  | «continue» => exact absurd exits Bool.false_ne_true
  | «return» values => exact ⟨nofun, nofun, fun _ => ⟨values, rfl⟩⟩

namespace Countdown

/-- An endless loop that is left by a `return` only. The `break` leaves the switch, the `continue` the
round, and the body is terminating. -/
def literal : FunctionLiteral := ⟨⟨[], [.int], []⟩, [
  .define ["n"] [.integer 2] ⟨2, 2⟩,
  .loop none none none [
    .switch none (some (.identifier "n" ⟨4, 10⟩)) [
      ⟨.otherwise, [.ifElse ⟨none, .binary (.identifier "n" ⟨6, 7⟩) .equal (.integer 1) ⟨6, 9⟩,
        [.step "n" false ⟨7, 5⟩, .continue ⟨8, 5⟩], .absent, ⟨6, 4⟩⟩, .break ⟨10, 4⟩], ⟨5, 3⟩⟩,
      ⟨.values [.integer 0], [.return [.integer 7] ⟨12, 4⟩], ⟨11, 3⟩⟩] ⟨4, 3⟩,
    .step "n" false ⟨14, 3⟩] ⟨3, 2⟩], ⟨1, 1⟩⟩

def machine : Machine := { Machine.initial .empty with
  store := ⟨#[Scope.empty]⟩
  calls := CallStack.empty.push ⟨"Main", [.int]⟩ }

@[irreducible] def after : Machine := behind (Eval.statements 10 50 [0] literal.body machine)

theorem returned : Eval.statements 10 50 [0] literal.body machine = .ok (.return [.int 7]) after := by
  unfold after literal machine
  cbv

end Countdown

/-- The loop of `Countdown` is left by a `return`, behind a `break` and a `continue`. -/
theorem countdown_left_by_return :
    ∃ checked flow after,
      Check.function [] Check.literalTitle true Countdown.literal .initial = .ok ((), checked) ∧
      Eval.statements 10 50 [0] Countdown.literal.body Countdown.machine = .ok flow after ∧
      Countdown.literal.signature.results ≠ [] ∧
      flow ≠ .break ∧ flow ≠ .continue ∧ ∃ values, flow = .return values := by
  obtain ⟨checked, accepted⟩ : ∃ checked,
      Check.function [] Check.literalTitle true Countdown.literal .initial = .ok ((), checked) := ⟨_, rfl⟩
  have some : Countdown.literal.signature.results ≠ [] := List.cons_ne_nil _ _
  obtain ⟨stays, goes, returns⟩ := body_left_by_return accepted Countdown.returned
  exact ⟨checked, _, _, accepted, Countdown.returned, some, stays, goes, returns some⟩

end MiniGo.Running
