import MiniGo.Proofs.Running.Exits
import MiniGo.Proofs.Running.Mirrors

/-!
# Switches without a tag

A switch without a tag whose bodies never break out does what a chain of conditional statements does: one for
each case in textual order, with the body of the default case as the last `else`. Each conditional statement
opens a scope of its own, in which nothing is declared, so the machines differ in the numbers of scopes.
-/

namespace MiniGo.Running

open Syntax

variable {limit : Nat} {env : Env} {machine : Machine} {location : Location} {cases : List SwitchCase}
  {default? : Option SwitchCase}

/-! ## Chains of conditional statements -/

/-- The disjunction of the values of a case. -/
def anyOf (location : Location) (first : Expr) : List Expr → Expr
  | [] => first
  | second :: rest => anyOf location (.binary first .or second location) rest

/-- One conditional statement for each case that has values, in textual order. -/
def ladder (last : ElseBranch) : List SwitchCase → ElseBranch
  | ⟨.values (first :: others), body, location⟩ :: rest =>
      .chain ⟨none, anyOf location first others, body, ladder last rest, location⟩
  | _ :: rest => ladder last rest
  | [] => last

/-- The body of the default case as an `else`. -/
def lastBranch : Option SwitchCase → ElseBranch
  | some found => .block found.body
  | none => .absent

/-- A switch without a tag as a chain of conditional statements. The first of them has the header of the switch. -/
def chained (init : Option Stmt) (cases : List SwitchCase) : Stmt :=
  match ladder (lastBranch (Eval.defaultCase cases)) cases with
  | .chain first => .ifElse { first with init := init }
  | .block body => .block (init.toList ++ [.block body])
  | .absent => .block init.toList

/-- A body is never left by a `break`. -/
def NeverBreaks (limit : Nat) (body : List Stmt) : Prop :=
  ∀ fuel env machine after, Eval.block limit fuel env body machine ≠ .ok .break after

/-! ## Bodies without a `break` -/

def anywhere : Check.Body := ⟨"", 0, false, true, true⟩

mutual

theorem placed_stmt : (found : Stmt) → Placed.stmt anywhere found
  | .break _ | .continue _ => rfl
  | .block inner => placed_stmts inner
  | .ifElse found => placed_ifStmt found
  | .loop _ _ _ inner _ => placed_stmts inner
  | .switch _ _ found _ => placed_cases found
  | .declare _ | .define .. | .assign .. | .compound .. | .step .. | .return .. | .expression _ => trivial

theorem placed_stmts : (found : List Stmt) → Placed.stmts anywhere found
  | [] => trivial
  | first :: rest => ⟨placed_stmt first, placed_stmts rest⟩

theorem placed_ifStmt : (found : IfStmt) → Placed.ifStmt anywhere found
  | ⟨_, _, inner, orElse, _⟩ => ⟨placed_stmts inner, placed_elseBranch orElse⟩

theorem placed_elseBranch : (found : ElseBranch) → Placed.elseBranch anywhere found
  | .absent => trivial
  | .block inner => placed_stmts inner
  | .chain next => placed_ifStmt next

theorem placed_cases : (found : List SwitchCase) → Placed.cases anywhere found
  | [] => trivial
  | ⟨_, inner, _⟩ :: rest => ⟨placed_stmts inner, placed_cases rest⟩

end

/-- A body is not left by a `break` when none of its statements has one that leaves it. -/
theorem neverBreaks_of_breaksOut {body : List Stmt} (keeps : breaksOutAny body = false) : NeverBreaks limit body := by
  intro fuel env machine after ran
  have exits := (leaving limit fuel).block (placed_stmts body) machine .break after ran
  rw [Exits, keeps] at exits
  exact Bool.false_ne_true exits.2

/-! ## Disjunctions -/

/-- A condition behind another, which is not evaluated when the first one holds. -/
def OrElse (first : EStateM.Result Halt Machine Bool → Prop)
    (next : Machine → EStateM.Result Halt Machine Bool → Prop) : EStateM.Result Halt Machine Bool → Prop :=
  Then first fun holds after result => if holds = true then result = .ok true after else next after result

theorem orElse_assoc {first : EStateM.Result Halt Machine Bool → Prop}
    {next last : Machine → EStateM.Result Halt Machine Bool → Prop} {result : EStateM.Result Halt Machine Bool} :
    OrElse (OrElse first next) last result ↔ OrElse first (fun after => OrElse (next after) last) result := by
  refine then_assoc.trans (then_congr (fun _ => Iff.rfl) fun holds after => ?_)
  cases holds with
  | true => exact then_ok fun _ => Iff.rfl
  | false => exact Iff.rfl

theorem comes_or {left right : Expr} {place : Location} {result : EStateM.Result Halt Machine Bool} :
    Comes (fun fuel => Eval.condition limit fuel env (.binary left .or right location) place) machine result ↔
      OrElse (Comes (fun fuel => Eval.condition limit fuel env left location) machine)
        (Comes fun fuel => Eval.condition limit fuel env right location) result := by
  have evaluates : ∀ {result}, Comes (fun fuel => Eval.evaluate limit fuel env (.binary left .or right location)) machine result ↔
      Then (Comes (fun fuel => Eval.condition limit fuel env left location) machine)
        (fun holds => Comes fun fuel => if holds = true then pure (.bool true) else do
          let outcome ← Eval.condition limit fuel env right location
          pure (.bool outcome)) result :=
    (comes_succ rfl).trans
      (comes_bind extends_condition fun _ => .choice .const (extends_condition.bind fun _ => .const))
  refine comes_condition.trans ((then_congr (fun _ => evaluates) fun _ _ => Iff.rfl).trans
    (then_assoc.trans (then_congr (fun _ => Iff.rfl) fun holds after => ?_)))
  cases holds with
  | true =>
      exact (then_ok fun _ => comes_pure).trans comes_ofExcept
  | false =>
      refine (then_congr (fun _ => comes_bind extends_condition fun _ => .const) fun _ _ => Iff.rfl).trans
        (then_assoc.trans ((then_congr (fun _ => Iff.rfl) fun outcome last => ?_).trans then_same))
      exact (then_ok fun _ => comes_pure).trans comes_ofExcept

theorem comes_anyMatches_cons {expr : Expr} {rest : List Expr} {result : EStateM.Result Halt Machine Bool} :
    Comes (fun fuel => Eval.anyMatches limit fuel env none location (expr :: rest)) machine result ↔
      OrElse (Comes (fun fuel => Eval.condition limit fuel env expr location) machine)
        (Comes fun fuel => Eval.anyMatches limit fuel env none location rest) result := by
  refine ((comes_succ rfl).trans (comes_bind extends_caseMatches fun _ => .choice .const extends_anyMatches)).trans
    (then_congr (fun _ => comes_succ rfl) fun holds after => ?_)
  cases holds with
  | true => exact comes_pure
  | false => exact Iff.rfl

theorem comes_anyOf {first : Expr} {others : List Expr} {result : EStateM.Result Halt Machine Bool} :
    Comes (fun fuel => Eval.condition limit fuel env (anyOf location first others) location) machine result ↔
      Comes (fun fuel => Eval.anyMatches limit fuel env none location (first :: others)) machine result := by
  induction others generalizing first with
  | nil =>
      refine Iff.symm (comes_anyMatches_cons.trans ((then_congr (fun _ => Iff.rfl) fun holds after => ?_).trans then_same))
      cases holds with
      | true => exact Iff.rfl
      | false => exact (comes_succ rfl).trans comes_pure
  | cons second rest ih =>
      refine ih.trans (comes_anyMatches_cons.trans ((then_congr (fun _ => comes_or) fun _ _ => Iff.rfl).trans
        (orElse_assoc.trans ?_)))
      refine Iff.symm (comes_anyMatches_cons.trans (then_congr (fun _ => Iff.rfl) fun holds after => ?_))
      cases holds with
      | true => exact Iff.rfl
      | false => exact comes_anyMatches_cons

/-! ## Climbing -/

/-- A body that is never left by a `break` does what it does as the body of a case. -/
theorem mirrors_body {found : SwitchCase} (never : NeverBreaks limit found.body) :
    Mirrors (fun env => Comes fun fuel => Eval.block limit fuel env found.body)
      (fun env machine => Bodied limit env machine (some found)) := by
  refine (Mirrors.of_echoes fun {pairs env fuel} => ?_).iff Iff.rfl comes_runChosen.symm
  intro machine twin twins
  have echoed := @Echoing.block pairs limit fuel (echoing pairs limit fuel) env found.body machine twin twins
  change Echoed pairs _ _ ((Eval.block limit fuel (env.filterMap pairs) found.body >>= fun flow => pure (unbroken flow)) twin)
  rw [bind_run]
  cases ran : Eval.block limit fuel env found.body machine <;>
    cases ranTwin : Eval.block limit fuel (env.filterMap pairs) found.body twin <;> rw [ran, ranTwin] at echoed
  · obtain ⟨flows, twinsAfter⟩ := echoed
    refine ⟨?_, twinsAfter⟩
    cases flows with
    | «break» => exact absurd ran (never fuel env machine _)
    | normal => exact .normal
    | «continue» => exact .continue
    | «return» values => exact .return values
  · exact echoed.elim
  · exact echoed.elim
  · exact echoed

/-- What follows the body of a conditional statement. -/
def runElse (limit : Nat) (orElse : ElseBranch) (scope : Env) (fuel : Nat) : Eval Flow :=
  match orElse with
  | .absent => pure .normal
  | .block body => Eval.block limit fuel scope body
  | .chain next => Eval.conditional limit fuel scope next

/-- What follows a header: a conditional statement that already has its scope. -/
def climb (limit : Nat) (branch : ElseBranch) (scope : Env) (fuel : Nat) : Eval Flow :=
  match branch with
  | .absent => pure .normal
  | .block body => Eval.block limit fuel scope body
  | .chain next => do
      if ← Eval.condition limit fuel scope next.condition next.location then Eval.block limit fuel scope next.body
      else runElse limit next.orElse scope fuel

theorem extends_runElse {orElse : ElseBranch} : Extends (runElse limit orElse env) := by
  cases orElse with
  | absent => exact .const
  | block body => exact extends_block
  | chain next => exact fun _ _ le => (lengthening limit le).conditional

theorem extends_climb {branch : ElseBranch} : Extends (climb limit branch env) := by
  cases branch with
  | absent => exact .const
  | block body => exact extends_block
  | chain next => exact extends_condition.bind fun _ => .choice extends_block extends_runElse

theorem comes_conditional {found : IfStmt} {result : EStateM.Result Halt Machine Flow} :
    Comes (fun fuel => Eval.conditional limit fuel env found) machine result ↔
      Headed limit env found.init machine (fun scope => Comes (climb limit (.chain found) scope)) result := by
  have steps : ∀ fuel, Eval.conditional limit (fuel + 1) env found = (do
      let scope ← Eval.openScope env
      Eval.header limit fuel scope found.init
      climb limit (.chain found) scope fuel) := fun fuel => by
    refine bind_congr fun scope => bind_congr fun _ => bind_congr fun holds => ?_
    cases found.orElse <;> rfl
  refine (comes_succ rfl).trans ?_
  simp only [steps]
  exact comes_headed fun scope => extends_climb

theorem Mirrors.rung {branch : ElseBranch} {right : Env → Machine → EStateM.Result Halt Machine Flow → Prop}
    (bare : ∀ next, branch = .chain next → next.init = none)
    (mirrors : Mirrors (fun env => Comes (climb limit branch env)) right) :
    Mirrors (fun env => Comes (runElse limit branch env)) right := by
  cases branch with
  | absent | block body => exact mirrors
  | chain next =>
      have none : ∀ {scope machine result}, Comes (fun fuel => Eval.header limit fuel scope next.init) machine result ↔
          result = .ok () machine := by
        intro scope machine result
        rw [bare next rfl]
        exact (comes_succ rfl).trans comes_pure
      exact mirrors.blank.iff (comes_conditional.trans (then_congr (fun _ => Iff.rfl) fun _ _ => then_ok fun _ => none)) Iff.rfl

theorem ladder_bare (default? : Option SwitchCase) (cases : List SwitchCase) {next : IfStmt}
    (same : ladder (lastBranch default?) cases = .chain next) : next.init = none := by
  induction cases with
  | nil => cases default? <;> cases same
  | cons first rest ih =>
      obtain ⟨label, body, location⟩ := first
      match label with
      | .otherwise | .values [] => exact ih same
      | .values (expr :: others) =>
          cases same
          rfl

/-- What a switch without a tag does from some case on. -/
def Trying (limit : Nat) (default? : Option SwitchCase) (cases : List SwitchCase) (scope : Env) (machine : Machine) :
    EStateM.Result Halt Machine Flow → Prop :=
  Then (Searched limit scope none (candidates cases) machine)
    fun selected after => Bodied limit scope after (selected.or default?)

theorem formed_anyOf (location : Location) {first : Expr} {others : List Expr} (formed : Formed.expr first) (rest : Formed.exprs others) :
    Formed.expr (anyOf location first others) := by
  induction others generalizing first with
  | nil => exact formed
  | cons second others ih => exact ih ⟨formed, rest.1⟩ rest.2

/-- A ladder does what the search through its cases does. -/
theorem mirrors_ladder (formed : Formed.cases cases) (never : ∀ found ∈ cases, NeverBreaks limit found.body)
    (last : ∀ found, default? = some found → NeverBreaks limit found.body) :
    Mirrors (fun env => Comes (climb limit (ladder (lastBranch default?) cases) env)) (Trying limit default? cases) := by
  -- the induction is on the cases; each rung opens one scope more than the search, which `Mirrors.rung` takes away
  induction cases with
  | nil =>
      have none : ∀ {env machine result}, Trying limit default? [] env machine result ↔ Bodied limit env machine default? result := by
        intro env machine result
        exact then_ok fun _ => searched_nil
      cases default? with
      | none => exact (Mirrors.of_echoes (.pure .normal)).iff Iff.rfl (none.trans comes_runChosen.symm)
      | some found => exact (mirrors_body (last found rfl)).iff Iff.rfl none
  | cons first rest ih =>
      obtain ⟨label, body, location⟩ := first
      obtain ⟨formedLabel, _, formedRest⟩ := formed
      obtain ⟨neverHere, neverRest⟩ := List.forall_mem_cons.mp never
      have behind := ih formedRest neverRest
      match label with
      | .otherwise => exact behind
      | .values [] => exact absurd rfl formedLabel.1
      | .values (expr :: others) =>
          refine (Mirrors.choice limit location (formed_anyOf location formedLabel.2.1 formedLabel.2.2)
            (mirrors_body neverHere) (behind.rung fun next => ladder_bare default? rest)).iff ?_ ?_
          · intro env machine result
            refine (comes_bind extends_condition fun _ => .choice extends_block extends_runElse).trans
              (then_congr (fun _ => Iff.rfl) fun holds after => ?_)
            cases holds <;> exact Iff.rfl
          · intro env machine result
            refine (then_congr (fun _ => searched_values) fun _ _ => Iff.rfl).trans (then_assoc.trans
              (Iff.symm (then_congr (fun _ => comes_anyOf) fun holds after => ?_)))
            cases holds with
            | true =>
                refine Iff.symm ?_
                exact then_ok fun _ => Iff.rfl
            | false => exact Iff.rfl

/-! ## Whole statements -/

theorem simple_normal {stmt : Stmt} (simple : isSimple stmt = true) (fuel : Nat) :
    Ends (Eval.statement limit fuel env stmt) (· = .normal) := by
  cases fuel with
  | zero => exact .halted
  | succ fuel =>
      cases stmt with
      | define names exprs location | assign names exprs location =>
          refine .seq fun received => ?_
          split
          · exact .seq fun _ => .pure rfl
          · exact .halted
      | compound target op expr location => exact .seq fun _ => .seq fun _ => .seq fun _ => .seq fun _ => .pure rfl
      | step target up location => exact .seq fun _ => .seq fun _ => .seq fun _ => .pure rfl
      | expression expr =>
          cases expr with
          | call callee args location => exact .seq fun _ => .pure rfl
          | _ => exact .seq fun _ => .pure rfl
      | _ => cases simple

theorem extends_statements {body : List Stmt} : Extends fun fuel => Eval.statements limit fuel env body :=
  fun _ _ le => (lengthening limit le).statements

theorem comes_statements_nil {result : EStateM.Result Halt Machine Flow} :
    Comes (fun fuel => Eval.statements limit fuel env []) machine result ↔ result = .ok .normal machine :=
  (comes_succ rfl).trans comes_pure

/-- What comes behind a statement: more code runs only when it finished normally. -/
def Following (next : Machine → EStateM.Result Halt Machine Flow → Prop) :
    Flow → Machine → EStateM.Result Halt Machine Flow → Prop
  | .normal, after, result => next after result
  | flow, after, result => result = .ok flow after

theorem comes_statements_cons {first : Stmt} {rest : List Stmt} {result : EStateM.Result Halt Machine Flow} :
    Comes (fun fuel => Eval.statements limit fuel env (first :: rest)) machine result ↔
      Then (Comes (fun fuel => Eval.statement limit fuel env first) machine)
        (Following (Comes fun fuel => Eval.statements limit fuel env rest)) result := by
  have front : Extends fun fuel => Eval.statement limit fuel env first := fun _ _ le => (lengthening limit le).statement
  refine (comes_succ rfl).trans ((comes_bind front fun flow => ?_).trans (then_congr (fun _ => Iff.rfl) fun flow after => ?_))
  · cases flow with
    | normal => exact extends_statements
    | _ => exact .const
  · cases flow with
    | normal => exact Iff.rfl
    | _ => exact comes_pure

theorem comes_statements_block {body : List Stmt} {result : EStateM.Result Halt Machine Flow} :
    Comes (fun fuel => Eval.statements limit fuel env [.block body]) machine result ↔
      Comes (fun fuel => Eval.block limit fuel env body) machine result := by
  refine comes_statements_cons.trans ((then_congr (fun _ => comes_succ rfl) fun flow after => ?_).trans then_same)
  cases flow with
  | normal => exact comes_statements_nil
  | _ => exact Iff.rfl

/-- A block whose first statement could stand in a header. -/
theorem comes_block {init : Option Stmt} (formed : Formed.header init) {rest : List Stmt}
    {result : EStateM.Result Halt Machine Flow} :
    Comes (fun fuel => Eval.statement limit fuel env (.block (init.toList ++ rest))) machine result ↔
      Headed limit env init machine (fun scope => Comes fun fuel => Eval.statements limit fuel scope rest) result := by
  refine (comes_succ rfl).trans ((comes_succ rfl).trans ((comes_bind .const fun _ => extends_statements).trans
    (then_congr (fun _ => Iff.rfl) fun scope entered => ?_)))
  cases init with
  | none =>
      refine Iff.symm ?_
      exact then_ok fun _ => (comes_succ rfl).trans comes_pure
  | some init =>
      have header : ∀ result, Comes (fun fuel => Eval.header limit fuel scope (some init)) entered result ↔
          Then (Comes (fun fuel => Eval.statement limit fuel scope init) entered)
            (fun _ after result => result = .ok () after) result := fun _ =>
        (comes_succ rfl).trans ((comes_bind (fun _ _ le => (lengthening limit le).statement) fun _ => .const).trans
          (then_congr (fun _ => Iff.rfl) fun _ _ => comes_pure))
      refine comes_statements_cons.trans (Iff.symm ((then_congr header fun _ _ => Iff.rfl).trans
        (then_assoc.trans (then_congr_ok fun flow after ran => ?_))))
      obtain ⟨fuel, ran, _⟩ := ran
      obtain rfl := simple_normal formed.2 fuel entered flow after ran
      exact then_ok fun _ => Iff.rfl

theorem comes_chained {init : Option Stmt} (formed : Formed.header init) {result : EStateM.Result Halt Machine Flow} :
    Comes (fun fuel => Eval.statement limit fuel env (chained init cases)) machine result ↔
      Headed limit env init machine
        (fun scope => Comes (climb limit (ladder (lastBranch (Eval.defaultCase cases)) cases) scope)) result := by
  unfold chained
  have within : ∀ {next behind : Env → Machine → EStateM.Result Halt Machine Flow → Prop},
      (∀ scope started result, next scope started result ↔ behind scope started result) →
      (Headed limit env init machine next result ↔ Headed limit env init machine behind result) := fun same =>
    then_congr (fun _ => Iff.rfl) fun _ _ => then_congr (fun _ => Iff.rfl) fun _ _ => same _ _ _
  cases ladder (lastBranch (Eval.defaultCase cases)) cases with
  | chain first => exact (comes_succ rfl).trans comes_conditional
  | block body => exact (comes_block formed).trans (within fun _ _ _ => comes_statements_block)
  | absent =>
      have empty := @comes_block limit env machine init formed [] result
      rw [List.append_nil] at empty
      exact empty.trans (within fun _ _ _ => comes_statements_nil.trans comes_pure.symm)

theorem switched_untagged {scope : Env} {result : EStateM.Result Halt Machine Flow} :
    Switched limit scope none cases machine result ↔ Trying limit (Eval.defaultCase cases) cases scope machine result := by
  refine (then_ok fun _ => tagged_none).trans (then_congr (fun _ => Iff.rfl) fun selected after => ⟨?_, ?_⟩)
  · rintro ⟨chosen, choice, ran⟩
    exact chosen_iff.mp choice ▸ ran
  · exact fun ran => ⟨_, chosen_iff.mpr rfl, ran⟩

/-- A switch statement evaluates its tag once, and the values of its cases in textual order up to the first one that
matches; the body of that case runs, else the body of the default case, and a `break` in it ends the switch. Without
a tag, and with bodies that never break out, it does what the chain of its cases does, in every store that a session
of an accepted program comes to (`Reached.tidyStore`). -/
theorem switch_first_match (limit : Nat) (env : Env) (init : Option Stmt) (tag : Option Expr) (cases : List SwitchCase)
    (location : Location) (machine : Machine) :
    (∀ result, Comes (fun fuel => Eval.statement limit fuel env (.switch init tag cases location)) machine result ↔
      Headed limit env init machine (fun scope => Switched limit scope tag cases) result) ∧
    (TidyStore machine.store → Within machine.store.scopes.size env → Formed.stmt (.switch init none cases location) →
      (∀ found ∈ cases, NeverBreaks limit found.body) →
      BothWays (Alike some machine.store.scopes.size)
        (Comes (fun fuel => Eval.statement limit fuel env (chained init cases)) machine)
        (Comes (fun fuel => Eval.statement limit fuel env (.switch init none cases location)) machine)) := by
  refine ⟨fun _ => comes_switchStatement, fun tidy within formed never => ?_⟩
  obtain ⟨formedInit, _, formedCases, _⟩ := formed
  have last : ∀ found, Eval.defaultCase cases = some found → NeverBreaks limit found.body := fun found same =>
    never found (List.mem_of_find?_eq_some same)
  exact ((mirrors_ladder formedCases never last).headed formedInit tidy within).iff (fun _ => comes_chained formedInit)
    fun _ => comes_switchStatement.trans
      (then_congr (fun _ => Iff.rfl) fun _ _ => then_congr (fun _ => Iff.rfl) fun _ _ => switched_untagged)

/-! A switch whose default case stands first. -/

namespace Classified

/-- A machine with an integer `x` in a call that has a string as its result. -/
def start : Machine :=
  { Machine.initial .empty with
    store := ⟨#[⟨[("x", ⟨.int 5, true⟩)]⟩]⟩
    calls := CallStack.empty.push ⟨"Classify", [.string]⟩ }

/-- `default: return "zero"`, `case x < 0: return "negative"` and `case x > 9, x > 0: return "positive"`. -/
def classes : List SwitchCase := [
  ⟨.otherwise, [.return [.string "zero"] ⟨2, 10⟩], ⟨2, 1⟩⟩,
  ⟨.values [.binary (.identifier "x" ⟨3, 6⟩) .less (.integer 0) ⟨3, 8⟩],
    [.return [.string "negative"] ⟨3, 13⟩], ⟨3, 1⟩⟩,
  ⟨.values [.binary (.identifier "x" ⟨4, 6⟩) .greater (.integer 9) ⟨4, 8⟩,
    .binary (.identifier "x" ⟨4, 13⟩) .greater (.integer 0) ⟨4, 15⟩],
    [.return [.string "positive"] ⟨4, 20⟩], ⟨4, 1⟩⟩]

@[irreducible] def after : Machine := behind (Eval.statement 10 12 [0] (.switch none none classes ⟨1, 1⟩) start)

theorem ran : Eval.statement 10 12 [0] (.switch none none classes ⟨1, 1⟩) start
    = .ok (.return [.string "positive"]) after := by
  unfold after classes start
  cbv

theorem tidy : TidyStore start.store := by
  intro id entry member
  match id with
  | 0 =>
      obtain rfl := List.mem_singleton.mp member
      exact housed_of_scalar rfl
  | id + 1 =>
      rw [start.store.scope_of_le (Nat.le_add_left 1 id)] at member
      exact absurd member List.not_mem_nil

theorem within : Within start.store.scopes.size [0] := by
  intro id member
  obtain rfl := List.mem_singleton.mp member
  exact Nat.zero_lt_one

theorem formed : Formed.stmt (.switch none none classes ⟨1, 1⟩) := by
  have name : IsName "x" := ⟨⟨'x', [], rfl, rfl, fun _ member => absurd member List.not_mem_nil⟩, by decide⟩
  have body : ∀ text location, Formed.stmts [.return [.string text] location] := fun _ _ =>
    ⟨⟨trivial, trivial⟩, nofun, trivial⟩
  have value : ∀ op number here there, 0 ≤ number → Formed.expr (.binary (.identifier "x" here) op (.integer number) there) :=
    fun _ _ _ _ literal => ⟨name, Or.inl literal⟩
  refine ⟨trivial, trivial, ⟨trivial, body _ _, ⟨nofun, value _ _ _ _ (by decide), trivial⟩, body _ _, ?_, body _ _, trivial⟩,
    by decide⟩
  exact ⟨nofun, value _ _ _ _ (by decide), value _ _ _ _ (by decide), trivial⟩

theorem never : ∀ found ∈ classes, NeverBreaks 10 found.body := by
  intro found member
  simp only [classes, List.mem_cons, List.not_mem_nil, or_false] at member
  rcases member with rfl | rfl | rfl <;> exact neverBreaks_of_breaksOut rfl

end Classified

open Classified in
/-- The body of the third case runs, in the switch and in the chain of its cases. -/
theorem positive_in_chain :
    TidyStore start.store ∧ Within start.store.scopes.size [0] ∧ Formed.stmt (.switch none none classes ⟨1, 1⟩) ∧
    (∀ found ∈ classes, NeverBreaks 10 found.body) ∧
    Headed 10 [0] none start (fun scope => Switched 10 scope none classes) (.ok (.return [.string "positive"]) after) ∧
    ∃ result, Comes (fun fuel => Eval.statement 10 fuel [0] (chained none classes)) start result ∧
      Alike some 1 result (.ok (.return [.string "positive"]) after) := by
  obtain ⟨meaning, chain⟩ := switch_first_match 10 [0] none none classes ⟨1, 1⟩ start
  have comes : Comes (fun fuel => Eval.statement 10 fuel [0] (.switch none none classes ⟨1, 1⟩)) start
      (.ok (.return [.string "positive"]) after) := ⟨12, ran, id⟩
  exact ⟨tidy, within, formed, never, (meaning _).mp comes, (chain tidy within formed never).back _ comes⟩

end MiniGo.Running
