import MiniGo.Eval.Evaluate

/-!
# The bounds of a run

Two bounds can cut a run off: the limit on active calls and the bound on its length. `Surpasses` compares a
computation with the same one under greater bounds: they agree on the outcome and on the machine, unless the
first one stops for a reason that greater bounds take away.

So the length of a run does not matter once it is long enough. `Comes` says how a run ends under any bound on
its length that suffices, and `comes_bind` takes such runs apart.
-/

namespace MiniGo.Running

variable {stops : Halt → Prop} {low high short long : Nat} {env : Env}

/-- A run stopped for one of some reasons. -/
def HaltsBy (stops : Halt → Prop) : EStateM.Result Halt Machine α → Prop
  | .error halt _ => stops halt
  | .ok _ _ => False

/-- From every machine, two computations do the same unless the first one stops for one of some reasons. -/
def Surpasses (stops : Halt → Prop) (first second : Eval α) : Prop :=
  ∀ machine, HaltsBy stops (first machine) ∨ second machine = first machine

namespace Surpasses

theorem same {action : Eval α} : Surpasses stops action action := fun _ => Or.inr rfl

theorem stopped {halt : Halt} {action : Eval α} (reason : stops halt) :
    Surpasses stops (fun machine => .error halt machine) action := fun _ => Or.inl reason

theorem bind {first second : Eval α} {next behind : α → Eval β} (front : Surpasses stops first second)
    (rest : ∀ value, Surpasses stops (next value) (behind value)) :
    Surpasses stops (first >>= next) (second >>= behind) := by
  intro machine
  change HaltsBy stops (EStateM.bind first next machine) ∨
    EStateM.bind second behind machine = EStateM.bind first next machine
  unfold EStateM.bind
  rcases front machine with stopped | agree
  · refine Or.inl ?_
    cases outcome : first machine with
    | ok value after =>
        rw [outcome] at stopped
        exact stopped.elim
    | error halt after =>
        rw [outcome] at stopped
        exact stopped
  · rw [agree]
    cases first machine with
    | ok value after => exact rest value after
    | error halt after => exact Or.inr rfl

theorem seq {action : Eval α} {next behind : α → Eval β}
    (rest : ∀ value, Surpasses stops (next value) (behind value)) :
    Surpasses stops (action >>= next) (action >>= behind) := same.bind rest

theorem before {first second : Eval α} {next : α → Eval β} (front : Surpasses stops first second) :
    Surpasses stops (first >>= next) (second >>= next) := front.bind fun _ => same

theorem choice {condition : Prop} [Decidable condition] {yes yes' no no' : Eval α}
    (one : Surpasses stops yes yes') (two : Surpasses stops no no') :
    Surpasses stops (if condition then yes else no) (if condition then yes' else no') := by
  split
  · exact one
  · exact two

theorem inFrame {frame : Frame} {first second : Eval α} (body : Surpasses stops first second) :
    Surpasses stops (Eval.inFrame frame first) (Eval.inFrame frame second) := by
  intro machine
  unfold Eval.inFrame
  rcases body { machine with calls := machine.calls.push frame } with stopped | agree
  · refine Or.inl ?_
    cases outcome : first { machine with calls := machine.calls.push frame } with
    | ok value after =>
        rw [outcome] at stopped
        exact stopped.elim
    | error halt after =>
        rw [outcome] at stopped
        exact stopped
  · rw [agree]
    exact Or.inr rfl

end Surpasses

/-- A call that one limit admits is admitted by the other as well, or it stops for one of some reasons. -/
def Admits (stops : Halt → Prop) (low high : Nat) : Prop :=
  low ≤ high ∧ (low = high ∨ ∀ limit location, stops (.fault (.stackOverflow limit location)))

/-- Every function of the evaluator does the same under other bounds, unless it stops for one of some
reasons. -/
structure Surpassing (stops : Halt → Prop) (low high short long : Nat) : Prop where
  evaluate : ∀ {env expr}, Surpasses stops (Eval.evaluate low short env expr) (Eval.evaluate high long env expr)
  condition : ∀ {env expr location},
    Surpasses stops (Eval.condition low short env expr location) (Eval.condition high long env expr location)
  values : ∀ {env exprs}, Surpasses stops (Eval.values low short env exprs) (Eval.values high long env exprs)
  eachValue : ∀ {env exprs}, Surpasses stops (Eval.eachValue low short env exprs) (Eval.eachValue high long env exprs)
  call : ∀ {env callee args location},
    Surpasses stops (Eval.call low short env callee args location) (Eval.call high long env callee args location)
  apply : ∀ {function args location},
    Surpasses stops (Eval.apply low short function args location) (Eval.apply high long function args location)
  enter : ∀ {closure args location},
    Surpasses stops (Eval.enter low short closure args location) (Eval.enter high long closure args location)
  statements : ∀ {env stmts}, Surpasses stops (Eval.statements low short env stmts) (Eval.statements high long env stmts)
  block : ∀ {env stmts}, Surpasses stops (Eval.block low short env stmts) (Eval.block high long env stmts)
  header : ∀ {env init}, Surpasses stops (Eval.header low short env init) (Eval.header high long env init)
  statement : ∀ {env stmt}, Surpasses stops (Eval.statement low short env stmt) (Eval.statement high long env stmt)
  conditional : ∀ {env found},
    Surpasses stops (Eval.conditional low short env found) (Eval.conditional high long env found)
  rounds : ∀ {env guard post inner location},
    Surpasses stops (Eval.rounds low short env guard post inner location) (Eval.rounds high long env guard post inner location)
  proceeds : ∀ {env guard location},
    Surpasses stops (Eval.proceeds low short env guard location) (Eval.proceeds high long env guard location)
  switch : ∀ {env tag cases}, Surpasses stops (Eval.switch low short env tag cases) (Eval.switch high long env tag cases)
  tagValue : ∀ {env tag}, Surpasses stops (Eval.tagValue low short env tag) (Eval.tagValue high long env tag)
  select : ∀ {env tagged cases},
    Surpasses stops (Eval.select low short env tagged cases) (Eval.select high long env tagged cases)
  anyMatches : ∀ {env tagged location exprs},
    Surpasses stops (Eval.anyMatches low short env tagged location exprs) (Eval.anyMatches high long env tagged location exprs)
  caseMatches : ∀ {env tagged location expr},
    Surpasses stops (Eval.caseMatches low short env tagged location expr) (Eval.caseMatches high long env tagged location expr)
  returning : ∀ {env exprs location},
    Surpasses stops (Eval.returning low short env exprs location) (Eval.returning high long env exprs location)
  declare : ∀ {env target decl},
    Surpasses stops (Eval.declare low short env target decl) (Eval.declare high long env target decl)

/-- Without any length left a run stops at once. -/
theorem surpassing_zero (exhausts : stops .exhausted) (low high long : Nat) :
    Surpassing stops low high 0 long where
  evaluate := .stopped exhausts
  condition := .stopped exhausts
  values := .stopped exhausts
  eachValue := .stopped exhausts
  call := .stopped exhausts
  apply := .stopped exhausts
  enter := .stopped exhausts
  statements := .stopped exhausts
  block := .stopped exhausts
  header := .stopped exhausts
  statement := .stopped exhausts
  conditional := .stopped exhausts
  rounds := .stopped exhausts
  proceeds := .stopped exhausts
  switch := .stopped exhausts
  tagValue := .stopped exhausts
  select := .stopped exhausts
  anyMatches := .stopped exhausts
  caseMatches := .stopped exhausts
  returning := .stopped exhausts
  declare := .stopped exhausts

theorem surpassing_none (stops : Halt → Prop) (low high : Nat) : Surpassing stops low high 0 0 where
  evaluate := .same
  condition := .same
  values := .same
  eachValue := .same
  call := .same
  apply := .same
  enter := .same
  statements := .same
  block := .same
  header := .same
  statement := .same
  conditional := .same
  rounds := .same
  proceeds := .same
  switch := .same
  tagValue := .same
  select := .same
  anyMatches := .same
  caseMatches := .same
  returning := .same
  declare := .same

namespace Surpassing

variable (bounds : Surpassing stops low high short long)
include bounds

/-! ## Expressions -/

theorem evaluate_succ {expr : Expr} :
    Surpasses stops (Eval.evaluate low (short + 1) env expr) (Eval.evaluate high (long + 1) env expr) := by
  cases expr with
  | integer value | float value | string value | identifier name location | qualified package name location
  | function literal => exact .same
  | unary op operand location => exact bounds.evaluate.before
  | call callee args location => exact bounds.call.before
  | binary left op right location =>
      cases op with
      | and => exact bounds.condition.bind fun outcome => .choice bounds.condition.before .same
      | or => exact bounds.condition.bind fun outcome => .choice .same bounds.condition.before
      | _ => exact bounds.evaluate.bind fun _ => bounds.evaluate.before

theorem values_succ {exprs : List Expr} :
    Surpasses stops (Eval.values low (short + 1) env exprs) (Eval.values high (long + 1) env exprs) := by
  unfold Eval.values
  split
  · exact bounds.call.before
  · exact bounds.eachValue

theorem eachValue_succ {exprs : List Expr} :
    Surpasses stops (Eval.eachValue low (short + 1) env exprs) (Eval.eachValue high (long + 1) env exprs) := by
  cases exprs with
  | nil => exact .same
  | cons expr rest => exact bounds.evaluate.bind fun _ => bounds.eachValue.before

theorem apply_succ {function : Value} {args : List Value}
    {location : Location} :
    Surpasses stops (Eval.apply low (short + 1) function args location)
      (Eval.apply high (long + 1) function args location) := by
  cases function with
  | function closure => exact bounds.enter
  | _ => exact .same

theorem enter_succ (admits : Admits stops low high) {closure : Closure}
    {args : List Value} {location : Location} :
    Surpasses stops (Eval.enter low (short + 1) closure args location)
      (Eval.enter high (long + 1) closure args location) := by
  refine .seq fun active => .choice .same ?_
  by_cases full : low ≤ active
  · rcases admits.2 with rfl | stopped
    · exact .choice .same (.seq fun inner => .seq fun _ => .seq fun _ => bounds.statements.inFrame.before)
    · rw [if_pos full]
      exact .stopped (stopped low location)
  · rw [if_neg full, if_neg fun more => full (Nat.le_trans admits.1 more)]
    exact .seq fun inner => .seq fun _ => .seq fun _ => bounds.statements.inFrame.before

/-! ## Statements -/

theorem statements_succ {stmts : List Stmt} :
    Surpasses stops (Eval.statements low (short + 1) env stmts) (Eval.statements high (long + 1) env stmts) := by
  cases stmts with
  | nil => exact .same
  | cons first rest =>
      refine bounds.statement.bind fun flow => ?_
      cases flow with
      | normal => exact bounds.statements
      | _ => exact .same

theorem header_succ {init : Option Stmt} :
    Surpasses stops (Eval.header low (short + 1) env init) (Eval.header high (long + 1) env init) := by
  cases init with
  | none => exact .same
  | some init => exact bounds.statement.before

theorem statement_succ {stmt : Stmt} :
    Surpasses stops (Eval.statement low (short + 1) env stmt) (Eval.statement high (long + 1) env stmt) := by
  cases stmt with
  | declare decl => exact bounds.declare.before
  | define names exprs location | assign names exprs location => exact bounds.values.before
  | compound target op expr location => exact .seq fun _ => bounds.evaluate.before
  | step target up location | «break» location | «continue» location => exact .same
  | ifElse found => exact bounds.conditional
  | loop init guard post inner location => exact .seq fun scope => bounds.header.bind fun _ => bounds.rounds
  | switch init tag cases location => exact .seq fun scope => bounds.header.bind fun _ => bounds.switch
  | «return» exprs location => exact bounds.returning
  | block inner => exact bounds.block
  | expression expr =>
      cases expr with
      | call callee args location => exact bounds.call.before
      | _ => exact bounds.evaluate.before

theorem conditional_succ {found : IfStmt} :
    Surpasses stops (Eval.conditional low (short + 1) env found) (Eval.conditional high (long + 1) env found) := by
  refine .seq fun scope => bounds.header.bind fun _ => bounds.condition.bind fun outcome =>
    .choice bounds.block ?_
  cases found.orElse with
  | absent => exact .same
  | block other => exact bounds.block
  | chain next => exact bounds.conditional

theorem rounds_succ {guard : Option Expr} {post : Option Stmt}
    {inner : List Stmt} {location : Location} :
    Surpasses stops (Eval.rounds low (short + 1) env guard post inner location)
      (Eval.rounds high (long + 1) env guard post inner location) := by
  refine bounds.proceeds.bind fun goes => .choice (bounds.block.bind fun flow => ?_) .same
  have again : Surpasses stops (do
      Eval.header low short env post
      Eval.rounds low short env guard post inner location) (do
      Eval.header high long env post
      Eval.rounds high long env guard post inner location) :=
    bounds.header.bind fun _ => bounds.rounds
  cases flow with
  | normal | «continue» => exact again
  | «break» | «return» values => exact .same

theorem proceeds_succ {guard : Option Expr}
    {location : Location} :
    Surpasses stops (Eval.proceeds low (short + 1) env guard location)
      (Eval.proceeds high (long + 1) env guard location) := by
  cases guard with
  | none => exact .same
  | some expr => exact bounds.condition

theorem switch_succ {tag : Option Expr}
    {cases : List SwitchCase} :
    Surpasses stops (Eval.switch low (short + 1) env tag cases) (Eval.switch high (long + 1) env tag cases) := by
  refine bounds.tagValue.bind fun tagged => bounds.select.bind fun selected => ?_
  cases selected.or (Eval.defaultCase cases) with
  | none => exact .same
  | some found => exact bounds.block.before

theorem tagValue_succ {tag : Option Expr} :
    Surpasses stops (Eval.tagValue low (short + 1) env tag) (Eval.tagValue high (long + 1) env tag) := by
  cases tag with
  | none => exact .same
  | some expr => exact bounds.evaluate.before

theorem select_succ {tagged : Option (Value × Expr)}
    {cases : List SwitchCase} :
    Surpasses stops (Eval.select low (short + 1) env tagged cases) (Eval.select high (long + 1) env tagged cases) := by
  cases cases with
  | nil => exact .same
  | cons first rest =>
      obtain ⟨label, inner, location⟩ := first
      cases label with
      | otherwise => exact bounds.select
      | values exprs => exact bounds.anyMatches.bind fun matched => .choice .same bounds.select

theorem anyMatches_succ {tagged : Option (Value × Expr)}
    {location : Location} {exprs : List Expr} :
    Surpasses stops (Eval.anyMatches low (short + 1) env tagged location exprs)
      (Eval.anyMatches high (long + 1) env tagged location exprs) := by
  cases exprs with
  | nil => exact .same
  | cons expr rest => exact bounds.caseMatches.bind fun matched => .choice .same bounds.anyMatches

theorem caseMatches_succ {tagged : Option (Value × Expr)}
    {location : Location} {expr : Expr} :
    Surpasses stops (Eval.caseMatches low (short + 1) env tagged location expr)
      (Eval.caseMatches high (long + 1) env tagged location expr) := by
  cases tagged with
  | none => exact bounds.condition
  | some pair => exact bounds.evaluate.before

theorem returning_succ {exprs : List Expr}
    {location : Location} :
    Surpasses stops (Eval.returning low (short + 1) env exprs location)
      (Eval.returning high (long + 1) env exprs location) := by
  cases exprs with
  | nil => exact .same
  | cons first rest => exact .seq fun frame => bounds.values.before

theorem declare_succ {target : Env} {decl : ValueDecl} :
    Surpasses stops (Eval.declare low (short + 1) env target decl) (Eval.declare high (long + 1) env target decl) := by
  unfold Eval.declare
  split
  · exact .same
  · exact bounds.values.before

theorem succ (admits : Admits stops low high) : Surpassing stops low high (short + 1) (long + 1) where
  evaluate := bounds.evaluate_succ
  condition := bounds.evaluate.before
  values := bounds.values_succ
  eachValue := bounds.eachValue_succ
  call := bounds.evaluate.bind fun _ => bounds.values.bind fun _ => bounds.apply.before
  apply := bounds.apply_succ
  enter := bounds.enter_succ admits
  statements := bounds.statements_succ
  block := .seq fun _ => bounds.statements
  header := bounds.header_succ
  statement := bounds.statement_succ
  conditional := bounds.conditional_succ
  rounds := bounds.rounds_succ
  proceeds := bounds.proceeds_succ
  switch := bounds.switch_succ
  tagValue := bounds.tagValue_succ
  select := bounds.select_succ
  anyMatches := bounds.anyMatches_succ
  caseMatches := bounds.caseMatches_succ
  returning := bounds.returning_succ
  declare := bounds.declare_succ

end Surpassing

/-! ## Runs that are long enough -/

/-- The length of the run was used up. -/
def CutOff : Halt → Prop
  | .exhausted => True
  | .fault _ => False

/-- Every function of the evaluator does the same in a longer run, unless the run was cut off. -/
theorem lengthening (limit : Nat) (le : short ≤ long) : Surpassing CutOff limit limit short long := by
  induction short generalizing long with
  | zero => exact surpassing_zero trivial limit limit long
  | succ short ih =>
      obtain ⟨more, rfl⟩ := Nat.exists_eq_add_of_le' le
      exact (ih (Nat.le_add_left short more)).succ ⟨Nat.le_refl limit, Or.inl rfl⟩

/-- A computation under a bound on its length does the same under a greater one, unless it was cut off. -/
def Extends (run : Nat → Eval α) : Prop :=
  ∀ short long, short ≤ long → Surpasses CutOff (run short) (run long)

/-- The run was not cut off because of its length. -/
def Finished (result : EStateM.Result Halt Machine α) : Prop := ¬ HaltsBy CutOff result

/-- How a computation ends under every bound on its length that is great enough. -/
def Comes (run : Nat → Eval α) (machine : Machine) (result : EStateM.Result Halt Machine α) : Prop :=
  ∃ fuel, run fuel machine = result ∧ Finished result

/-- One computation behind another: it starts where the first one ends, unless that one halts. -/
inductive Then (first : EStateM.Result Halt Machine α → Prop)
    (next : α → Machine → EStateM.Result Halt Machine β → Prop) : EStateM.Result Halt Machine β → Prop
  | ok {value : α} {machine : Machine} {result : EStateM.Result Halt Machine β} :
      first (.ok value machine) → next value machine result → Then first next result
  | error {halt : Halt} {machine : Machine} : first (.error halt machine) → Then first next (.error halt machine)

section

variable {first first' : EStateM.Result Halt Machine α → Prop}
  {next next' : α → Machine → EStateM.Result Halt Machine β → Prop} {result : EStateM.Result Halt Machine β}
  {machine : Machine}

theorem then_congr (same : ∀ result, first result ↔ first' result)
    (rest : ∀ value middle, next value middle result ↔ next' value middle result) :
    Then first next result ↔ Then first' next' result := by
  constructor
  · rintro (⟨ran, behind⟩ | ran)
    · exact .ok ((same _).mp ran) ((rest _ _).mp behind)
    · exact .error ((same _).mp ran)
  · rintro (⟨ran, behind⟩ | ran)
    · exact .ok ((same _).mpr ran) ((rest _ _).mpr behind)
    · exact .error ((same _).mpr ran)

theorem then_congr_ok (rest : ∀ value middle, first (.ok value middle) → (next value middle result ↔ next' value middle result)) :
    Then first next result ↔ Then first next' result := by
  constructor
  · rintro (⟨ran, behind⟩ | ran)
    · exact .ok ran ((rest _ _ ran).mp behind)
    · exact .error ran
  · rintro (⟨ran, behind⟩ | ran)
    · exact .ok ran ((rest _ _ ran).mpr behind)
    · exact .error ran

theorem then_assoc {last : β → Machine → EStateM.Result Halt Machine γ → Prop} {result : EStateM.Result Halt Machine γ} :
    Then (Then first next) last result ↔ Then first (fun value middle => Then (next value middle) last) result := by
  constructor
  · rintro (⟨⟨ran, between⟩ | _, behind⟩ | (⟨ran, between⟩ | ran))
    · exact .ok ran (.ok between behind)
    · exact .ok ran (.error between)
    · exact .error ran
  · rintro (⟨ran, ⟨between, behind⟩ | between⟩ | ran)
    · exact .ok (.ok ran between) behind
    · exact .error (.ok ran between)
    · exact .error (.error ran)

theorem then_ok {value : α} (only : ∀ result, first result ↔ result = .ok value machine) :
    Then first next result ↔ next value machine result := by
  constructor
  · rintro (⟨ran, behind⟩ | ran)
    · cases (only _).mp ran
      exact behind
    · cases (only _).mp ran
  · exact .ok ((only _).mpr rfl)

theorem then_error {halt : Halt} (only : ∀ result, first result ↔ result = .error halt machine) :
    Then first next result ↔ result = .error halt machine := by
  constructor
  · rintro (⟨ran, _⟩ | ran)
    · cases (only _).mp ran
    · cases (only _).mp ran
      rfl
  · rintro rfl
    exact .error ((only _).mpr rfl)

theorem then_same {result : EStateM.Result Halt Machine α} :
    Then first (fun value after result => result = .ok value after) result ↔ first result := by
  constructor
  · rintro (⟨ran, rfl⟩ | ran)
    · exact ran
    · exact ran
  · intro ran
    cases result with
    | ok value after => exact .ok ran rfl
    | error halt after => exact .error ran

end

variable {run : Nat → Eval α} {machine : Machine}

theorem Extends.const {action : Eval α} : Extends fun _ => action := fun _ _ _ => .same

theorem Extends.bind {next : α → Nat → Eval β} (first : Extends run) (rest : ∀ value, Extends (next value)) :
    Extends fun fuel => run fuel >>= fun value => next value fuel :=
  fun short long le => (first short long le).bind fun value => rest value short long le

theorem Extends.finished (extend : Extends run) {fuel more : Nat} (le : fuel ≤ more)
    (finished : Finished (run fuel machine)) : run more machine = run fuel machine :=
  (extend fuel more le machine).resolve_left finished

theorem comes_const {action : Eval α} {result : EStateM.Result Halt Machine α} :
    Comes (fun _ => action) machine result ↔ action machine = result ∧ Finished result :=
  ⟨fun ⟨_, both⟩ => both, fun both => ⟨0, both⟩⟩

theorem comes_pure {value : α} {result : EStateM.Result Halt Machine α} :
    Comes (fun _ => Pure.pure value) machine result ↔ result = .ok value machine :=
  comes_const.trans ⟨fun both => both.1.symm, fun same => ⟨same.symm, same ▸ id⟩⟩

theorem comes_succ {result : EStateM.Result Halt Machine α} (starts : run 0 = Eval.exhausted) :
    Comes run machine result ↔ Comes (fun fuel => run (fuel + 1)) machine result := by
  constructor
  · rintro ⟨fuel, ran, finished⟩
    cases fuel with
    | zero =>
        rw [starts] at ran
        subst ran
        exact absurd trivial finished
    | succ fuel => exact ⟨fuel, ran, finished⟩
  · exact fun ⟨fuel, both⟩ => ⟨fuel + 1, both⟩

theorem comes_bind {next : α → Nat → Eval β} {result : EStateM.Result Halt Machine β} (first : Extends run)
    (rest : ∀ value, Extends (next value)) :
    Comes (fun fuel => run fuel >>= fun value => next value fuel) machine result ↔
      Then (Comes run machine) (fun value middle => Comes (next value) middle) result := by
  have onward : ∀ {fuel value middle}, run fuel machine = .ok value middle →
      (run fuel >>= fun value => next value fuel) machine = next value fuel middle := fun ran => by
    simp only [Bind.bind, EStateM.bind, ran]
  have halted : ∀ {fuel halt middle}, run fuel machine = .error halt middle →
      (run fuel >>= fun value => next value fuel) machine = .error halt middle := fun ran => by
    simp only [Bind.bind, EStateM.bind, ran]
  constructor
  · rintro ⟨fuel, ran, finished⟩
    cases outcome : run fuel machine with
    | ok value middle => exact .ok ⟨fuel, outcome, id⟩ ⟨fuel, (onward outcome).symm.trans ran, finished⟩
    | error halt middle =>
        obtain rfl := (halted outcome).symm.trans ran
        exact .error ⟨fuel, outcome, finished⟩
  · rintro (⟨⟨fuel, ran, _⟩, more, ranMore, finished⟩ | ⟨fuel, ran, finished⟩)
    · -- the longer of the two runs does for both
      have early := first.finished (Nat.le_max_left fuel more) (by rw [ran]; exact id)
      have late := (rest _).finished (Nat.le_max_right fuel more) (by rw [ranMore]; exact finished)
      exact ⟨max fuel more, (onward (early.trans ran)).trans (late.trans ranMore), finished⟩
    · exact ⟨fuel, halted ran, finished⟩

end MiniGo.Running
