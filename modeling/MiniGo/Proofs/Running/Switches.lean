import MiniGo.Check.Terminating
import MiniGo.Proofs.Running.Assignments
import MiniGo.Proofs.Running.Bounds

/-!
# Switch statements

A switch evaluates its tag once, then the values of its cases in textual order, up to the first one that matches.
The body of that case runs; when no value matches, the body of the default case does, wherever it stands.
`Switched` says so without bounds on the length of runs, and `comes_switch` that switches do it.
-/

namespace MiniGo.Running

variable {limit : Nat} {env scope : Env} {machine : Machine} {location : Location} {tag : Option Expr}
  {tagged : Option (Value × Expr)} {cases : List SwitchCase}

/-! ## What a switch does -/

/-- Whether a value of a case matches: it equals the tag, with untyped integers converted on both sides, and
without a tag it has to be true. -/
def verdict (tagged : Option (Value × Expr)) (location : Location) (expr : Expr) (value : Value) :
    Except RuntimeError Bool :=
  match tagged with
  | none => value.asBool (expr.location?.getD location)
  | some (tag, tagExpr) =>
      (written value tag (some tagExpr)).equals (written tag value (some expr)) (expr.location?.getD location)

/-- The values of cases in textual order, each with its case. -/
def candidates (cases : List SwitchCase) : List (SwitchCase × Expr) :=
  cases.flatMap fun found =>
    match found.label with
    | .values exprs => exprs.map (found, ·)
    | .otherwise => []

/-- The tag is evaluated, if there is one. -/
inductive Tagged (limit : Nat) (scope : Env) (machine : Machine) :
    Option Expr → EStateM.Result Halt Machine (Option (Value × Expr)) → Prop
  | absent : Tagged limit scope machine none (.ok none machine)
  | value {expr : Expr} {value : Value} {after : Machine} :
      Comes (fun fuel => Eval.evaluate limit fuel scope expr) machine (.ok value after) →
      Tagged limit scope machine (some expr) (.ok (some (value, expr)) after)
  | halts {expr : Expr} {halt : Halt} {after : Machine} :
      Comes (fun fuel => Eval.evaluate limit fuel scope expr) machine (.error halt after) →
      Tagged limit scope machine (some expr) (.error halt after)

/-- Values of cases are evaluated one after the other, up to the first one that matches. -/
inductive Searched (limit : Nat) (scope : Env) (tagged : Option (Value × Expr)) :
    List (SwitchCase × Expr) → Machine → EStateM.Result Halt Machine (Option SwitchCase) → Prop
  | none {machine : Machine} : Searched limit scope tagged [] machine (.ok none machine)
  | found {found : SwitchCase} {expr : Expr} {rest : List (SwitchCase × Expr)} {value : Value} {machine after : Machine} :
      Comes (fun fuel => Eval.evaluate limit fuel scope expr) machine (.ok value after) →
      verdict tagged found.location expr value = .ok true →
      Searched limit scope tagged ((found, expr) :: rest) machine (.ok (some found) after)
  | passed {found : SwitchCase} {expr : Expr} {rest : List (SwitchCase × Expr)} {value : Value} {machine after : Machine}
      {result : EStateM.Result Halt Machine (Option SwitchCase)} :
      Comes (fun fuel => Eval.evaluate limit fuel scope expr) machine (.ok value after) →
      verdict tagged found.location expr value = .ok false → Searched limit scope tagged rest after result →
      Searched limit scope tagged ((found, expr) :: rest) machine result
  | refused {found : SwitchCase} {expr : Expr} {rest : List (SwitchCase × Expr)} {value : Value} {machine after : Machine}
      {error : RuntimeError} :
      Comes (fun fuel => Eval.evaluate limit fuel scope expr) machine (.ok value after) →
      verdict tagged found.location expr value = .error error →
      Searched limit scope tagged ((found, expr) :: rest) machine (.error (.fault error) after)
  | halts {found : SwitchCase} {expr : Expr} {rest : List (SwitchCase × Expr)} {halt : Halt} {machine after : Machine} :
      Comes (fun fuel => Eval.evaluate limit fuel scope expr) machine (.error halt after) →
      Searched limit scope tagged ((found, expr) :: rest) machine (.error halt after)

/-- The case whose body runs: the one that was found, else the default case, wherever it stands. -/
inductive Chosen (cases : List SwitchCase) : Option SwitchCase → Option SwitchCase → Prop
  | found {found : SwitchCase} : Chosen cases (some found) (some found)
  | otherwise {before behind : List SwitchCase} {default : SwitchCase} : cases = before ++ default :: behind →
      (∀ other ∈ before, other.isDefault = false) → default.isDefault = true → Chosen cases none (some default)
  | nothing : (∀ other ∈ cases, other.isDefault = false) → Chosen cases none none

/-- How a switch finishes whose body finished so: a `break` ends the switch and nothing else. -/
def unbroken : Flow → Flow
  | .break => .normal
  | flow => flow

/-- The body of the chosen case runs, if there is one. -/
inductive Bodied (limit : Nat) (scope : Env) (machine : Machine) :
    Option SwitchCase → EStateM.Result Halt Machine Flow → Prop
  | none : Bodied limit scope machine none (.ok .normal machine)
  | finishes {found : SwitchCase} {flow : Flow} {after : Machine} :
      Comes (fun fuel => Eval.block limit fuel scope found.body) machine (.ok flow after) →
      Bodied limit scope machine (some found) (.ok (unbroken flow) after)
  | halts {found : SwitchCase} {halt : Halt} {after : Machine} :
      Comes (fun fuel => Eval.block limit fuel scope found.body) machine (.error halt after) →
      Bodied limit scope machine (some found) (.error halt after)

/-- What a switch does in the scope of its header. -/
def Switched (limit : Nat) (scope : Env) (tag : Option Expr) (cases : List SwitchCase) (machine : Machine) :
    EStateM.Result Halt Machine Flow → Prop :=
  Then (Tagged limit scope machine tag) fun tagged middle =>
    Then (Searched limit scope tagged (candidates cases) middle) fun selected later result =>
      ∃ chosen, Chosen cases selected chosen ∧ Bodied limit scope later chosen result

/-! ## Runs of arbitrary length -/

section

variable {short long : Nat}

theorem extends_evaluate {expr : Expr} : Extends fun fuel => Eval.evaluate limit fuel env expr :=
  fun _ _ le => (lengthening limit le).evaluate

theorem extends_condition {expr : Expr} : Extends fun fuel => Eval.condition limit fuel env expr location :=
  fun _ _ le => (lengthening limit le).condition

theorem extends_block {body : List Stmt} : Extends fun fuel => Eval.block limit fuel env body :=
  fun _ _ le => (lengthening limit le).block

theorem extends_header {init : Option Stmt} : Extends fun fuel => Eval.header limit fuel env init :=
  fun _ _ le => (lengthening limit le).header

theorem extends_tagValue : Extends fun fuel => Eval.tagValue limit fuel scope tag :=
  fun _ _ le => (lengthening limit le).tagValue

theorem extends_caseMatches {expr : Expr} : Extends fun fuel => Eval.caseMatches limit fuel scope tagged location expr :=
  fun _ _ le => (lengthening limit le).caseMatches

theorem extends_anyMatches {exprs : List Expr} :
    Extends fun fuel => Eval.anyMatches limit fuel scope tagged location exprs :=
  fun _ _ le => (lengthening limit le).anyMatches

theorem extends_select : Extends fun fuel => Eval.select limit fuel scope tagged cases :=
  fun _ _ le => (lengthening limit le).select

theorem extends_switch : Extends fun fuel => Eval.switch limit fuel scope tag cases :=
  fun _ _ le => (lengthening limit le).switch

theorem Extends.choice {condition : Prop} [Decidable condition] {yes no : Nat → Eval α} (one : Extends yes)
    (two : Extends no) : Extends fun fuel => if condition then yes fuel else no fuel := by
  split
  · exact one
  · exact two

end

theorem comes_ofExcept {outcome : Except RuntimeError α} {result : EStateM.Result Halt Machine α} :
    Comes (fun _ => Eval.ofExcept outcome) machine result ↔ match outcome with
      | .ok value => result = .ok value machine
      | .error error => result = .error (.fault error) machine := by
  refine comes_const.trans ?_
  unfold Eval.ofExcept
  cases outcome with
  | ok value => exact ⟨fun both => both.1.symm, fun same => ⟨same.symm, same ▸ id⟩⟩
  | error error => exact ⟨fun both => both.1.symm, fun same => ⟨same.symm, same ▸ id⟩⟩

/-! ## The parts of a switch -/

theorem comes_condition {expr : Expr} {result : EStateM.Result Halt Machine Bool} :
    Comes (fun fuel => Eval.condition limit fuel env expr location) machine result ↔
      Then (Comes (fun fuel => Eval.evaluate limit fuel env expr) machine)
        (fun value => Comes fun _ => Eval.ofExcept (verdict none location expr value)) result :=
  (comes_succ rfl).trans (comes_bind extends_evaluate fun _ => .const)

theorem comes_caseMatches {expr : Expr} {result : EStateM.Result Halt Machine Bool} :
    Comes (fun fuel => Eval.caseMatches limit fuel scope tagged location expr) machine result ↔
      Then (Comes (fun fuel => Eval.evaluate limit fuel scope expr) machine)
        (fun value => Comes fun _ => Eval.ofExcept (verdict tagged location expr value)) result := by
  refine (comes_succ rfl).trans ?_
  cases tagged with
  | none => exact comes_condition
  | some pair =>
      refine (comes_bind extends_evaluate fun _ => .const).trans (then_congr (fun _ => Iff.rfl) fun value middle => ?_)
      rw [unify_eq]
      rfl

theorem tagged_none {result : EStateM.Result Halt Machine (Option (Value × Expr))} :
    Tagged limit scope machine none result ↔ result = .ok none machine := by
  constructor
  · rintro ⟨⟩
    rfl
  · rintro rfl
    exact .absent

theorem comes_tagValue {result : EStateM.Result Halt Machine (Option (Value × Expr))} :
    Comes (fun fuel => Eval.tagValue limit fuel scope tag) machine result ↔ Tagged limit scope machine tag result := by
  refine (comes_succ rfl).trans ?_
  cases tag with
  | none => exact comes_pure.trans tagged_none.symm
  | some expr =>
      refine (comes_bind extends_evaluate fun _ => .const).trans ⟨?_, ?_⟩
      · rintro (⟨ran, behind⟩ | ran)
        · cases comes_pure.mp behind
          exact .value ran
        · exact .halts ran
      · rintro (_ | ran | ran)
        · exact .ok ran (comes_pure.mpr rfl)
        · exact .error ran

/-- A value of a case was compared; when it does not match, the search goes on. -/
def Compared (limit : Nat) (scope : Env) (tagged : Option (Value × Expr)) (found : SwitchCase)
    (rest : List (SwitchCase × Expr)) :
    Bool → Machine → EStateM.Result Halt Machine (Option SwitchCase) → Prop
  | true, after, result => result = .ok (some found) after
  | false, after, result => Searched limit scope tagged rest after result

theorem searched_cons {found : SwitchCase} {expr : Expr} {rest : List (SwitchCase × Expr)}
    {result : EStateM.Result Halt Machine (Option SwitchCase)} :
    Searched limit scope tagged ((found, expr) :: rest) machine result ↔
      Then (Comes (fun fuel => Eval.caseMatches limit fuel scope tagged found.location expr) machine)
        (Compared limit scope tagged found rest) result := by
  refine Iff.trans ?_ ((then_congr (fun _ => comes_caseMatches) fun _ _ => Iff.rfl).trans then_assoc).symm
  -- A comparison runs no code, so its verdict is known once the value of the case is.
  have decides : ∀ {value after matched}, verdict tagged found.location expr value = .ok matched →
      (Then (Comes (fun _ => Eval.ofExcept (verdict tagged found.location expr value)) after)
        (Compared limit scope tagged found rest) result ↔ Compared limit scope tagged found rest matched after result) :=
    fun same => then_ok fun _ => comes_ofExcept.trans (by rw [same])
  have refuses : ∀ {value after error}, verdict tagged found.location expr value = .error error →
      (Then (Comes (fun _ => Eval.ofExcept (verdict tagged found.location expr value)) after)
        (Compared limit scope tagged found rest) result ↔ result = .error (.fault error) after) :=
    fun same => then_error fun _ => comes_ofExcept.trans (by rw [same])
  constructor
  · intro searched
    cases searched with
    | found ran same => exact .ok ran ((decides same).mpr rfl)
    | passed ran differs behind => exact .ok ran ((decides differs).mpr behind)
    | refused ran refused => exact .ok ran ((refuses refused).mpr rfl)
    | halts ran => exact .error ran
  · rintro (@⟨value, after, _, ran, compared⟩ | ran)
    · cases outcome : verdict tagged found.location expr value with
      | error error =>
          obtain rfl := (refuses outcome).mp compared
          exact .refused ran outcome
      | ok matched =>
          have decided := (decides outcome).mp compared
          cases matched with
          | true =>
              obtain rfl := decided
              exact .found ran outcome
          | false => exact .passed ran outcome decided
    · exact .halts ran

/-- The values of one case in front of those of others. -/
theorem searched_values {found : SwitchCase} {exprs : List Expr} {rest : List (SwitchCase × Expr)}
    {result : EStateM.Result Halt Machine (Option SwitchCase)} :
    Searched limit scope tagged (exprs.map (found, ·) ++ rest) machine result ↔
      Then (Comes (fun fuel => Eval.anyMatches limit fuel scope tagged found.location exprs) machine)
        (Compared limit scope tagged found rest) result := by
  -- the search goes on in the machine that the last value left
  induction exprs generalizing machine result with
  | nil =>
      have none : ∀ outcome, Comes (fun fuel => Eval.anyMatches limit fuel scope tagged found.location []) machine outcome ↔
          outcome = .ok false machine := fun _ => (comes_succ rfl).trans comes_pure
      refine Iff.symm ?_
      exact then_ok none
  | cons expr exprs ih =>
      refine searched_cons.trans (Iff.trans ?_ (then_congr (fun _ => (comes_succ rfl).trans
        (comes_bind extends_caseMatches fun _ => .choice .const extends_anyMatches)) fun _ _ => Iff.rfl).symm)
      refine Iff.trans (then_congr (fun _ => Iff.rfl) fun matched middle => ?_) then_assoc.symm
      cases matched with
      | true =>
          have stops : ∀ outcome, Comes (fun _ => pure true) middle outcome ↔ outcome = .ok true middle := fun _ => comes_pure
          refine Iff.symm ?_
          exact then_ok stops
      | false => exact ih

theorem searched_nil {result : EStateM.Result Halt Machine (Option SwitchCase)} :
    Searched limit scope tagged [] machine result ↔ result = .ok none machine := by
  constructor
  · rintro ⟨⟩
    rfl
  · rintro rfl
    exact .none

theorem comes_select {result : EStateM.Result Halt Machine (Option SwitchCase)} :
    Comes (fun fuel => Eval.select limit fuel scope tagged cases) machine result ↔
      Searched limit scope tagged (candidates cases) machine result := by
  induction cases generalizing machine result with
  | nil => exact ((comes_succ rfl).trans comes_pure).trans searched_nil.symm
  | cons first rest ih =>
      obtain ⟨label, body, location⟩ := first
      refine (comes_succ rfl).trans ?_
      cases label with
      | otherwise => exact ih
      | values exprs =>
          refine Iff.trans ?_ searched_values.symm
          refine (comes_bind extends_anyMatches fun _ => .choice .const extends_select).trans
            (then_congr (fun _ => Iff.rfl) fun matched middle => ?_)
          cases matched with
          | true => exact comes_pure
          | false => exact ih

theorem chosen_iff {selected chosen : Option SwitchCase} :
    Chosen cases selected chosen ↔ selected.or (Eval.defaultCase cases) = chosen := by
  have defaults : Eval.defaultCase cases = cases.find? SwitchCase.isDefault := rfl
  constructor
  · rintro (_ | ⟨rfl, before, here⟩ | none)
    · rfl
    · rw [Option.none_or, defaults, List.find?_append, List.find?_eq_none.mpr fun other member => by
        rw [before other member]; exact Bool.false_ne_true, List.find?_cons_of_pos here, Option.none_or]
    · rw [Option.none_or, defaults, List.find?_eq_none]
      intro other member
      rw [none other member]
      exact Bool.false_ne_true
  · rintro rfl
    cases selected with
    | some found => exact .found
    | none =>
        rw [Option.none_or, defaults]
        cases found : cases.find? SwitchCase.isDefault with
        | none => exact .nothing fun other member => Bool.eq_false_iff.mpr (List.find?_eq_none.mp found other member)
        | some default =>
            obtain ⟨here, before, behind, same, others⟩ := List.find?_eq_some_iff_append.mp found
            exact .otherwise same (fun other member => by simpa using others other member) here

/-- The body of a chosen case, as a switch runs it. -/
def runChosen (limit : Nat) (scope : Env) (chosen : Option SwitchCase) (fuel : Nat) : Eval Flow :=
  match chosen with
  | none => pure .normal
  | some found => do
      let flow ← Eval.block limit fuel scope found.body
      pure (unbroken flow)

theorem extends_runChosen {chosen : Option SwitchCase} : Extends (runChosen limit scope chosen) := by
  cases chosen with
  | none => exact .const
  | some found => exact extends_block.bind fun _ => .const

theorem comes_runChosen {chosen : Option SwitchCase} {result : EStateM.Result Halt Machine Flow} :
    Comes (runChosen limit scope chosen) machine result ↔ Bodied limit scope machine chosen result := by
  cases chosen with
  | none =>
      refine comes_pure.trans ⟨?_, ?_⟩
      · rintro rfl
        exact .none
      · rintro ⟨⟩
        rfl
  | some found =>
      refine (comes_bind extends_block fun _ => .const).trans ⟨?_, ?_⟩
      · rintro (⟨ran, behind⟩ | ran)
        · cases comes_pure.mp behind
          exact .finishes ran
        · exact .halts ran
      · rintro (_ | ran | ran)
        · exact .ok ran (comes_pure.mpr rfl)
        · exact .error ran

theorem switch_eq (fuel : Nat) : Eval.switch limit (fuel + 1) scope tag cases = (do
    let tagged ← Eval.tagValue limit fuel scope tag
    let selected ← Eval.select limit fuel scope tagged cases
    runChosen limit scope (selected.or (Eval.defaultCase cases)) fuel) := by
  refine bind_congr fun tagged => bind_congr fun selected => ?_
  cases selected.or (Eval.defaultCase cases) with
  | none => rfl
  | some found =>
      refine bind_congr fun flow => ?_
      cases flow <;> rfl

theorem comes_switch {result : EStateM.Result Halt Machine Flow} :
    Comes (fun fuel => Eval.switch limit fuel scope tag cases) machine result ↔
      Switched limit scope tag cases machine result := by
  refine (comes_succ rfl).trans ?_
  simp only [switch_eq]
  refine (comes_bind extends_tagValue fun _ => extends_select.bind fun _ => extends_runChosen).trans
    (then_congr (fun _ => comes_tagValue) fun tagged middle => ?_)
  refine (comes_bind extends_select fun _ => extends_runChosen).trans
    (then_congr (fun _ => comes_select) fun selected later => comes_runChosen.trans ?_)
  constructor
  · exact fun ran => ⟨_, chosen_iff.mpr rfl, ran⟩
  · rintro ⟨chosen, choice, ran⟩
    exact chosen_iff.mp choice ▸ ran

/-- A scope is opened for a header; what follows runs in it behind the statement of the header. -/
def Headed (limit : Nat) (env : Env) (init : Option Stmt) (machine : Machine)
    (next : Env → Machine → EStateM.Result Halt Machine α → Prop) : EStateM.Result Halt Machine α → Prop :=
  Then (Comes (fun _ => Eval.openScope env) machine) fun scope entered =>
    Then (Comes (fun fuel => Eval.header limit fuel scope init) entered) fun _ started => next scope started

theorem comes_headed {init : Option Stmt} {next : Env → Nat → Eval α} {result : EStateM.Result Halt Machine α}
    (rest : ∀ scope, Extends (next scope)) :
    Comes (fun fuel => do
      let scope ← Eval.openScope env
      Eval.header limit fuel scope init
      next scope fuel) machine result ↔ Headed limit env init machine (fun scope => Comes (next scope)) result :=
  (comes_bind .const fun scope => extends_header.bind fun _ => rest scope).trans
    (then_congr (fun _ => Iff.rfl) fun scope _ => comes_bind extends_header fun _ => rest scope)

theorem comes_switchStatement {init : Option Stmt} {result : EStateM.Result Halt Machine Flow} :
    Comes (fun fuel => Eval.statement limit fuel env (.switch init tag cases location)) machine result ↔
      Headed limit env init machine (fun scope => Switched limit scope tag cases) result := by
  refine ((comes_succ rfl).trans (comes_headed fun scope => extends_switch)).trans ?_
  exact then_congr (fun _ => Iff.rfl) fun scope _ => then_congr (fun _ => Iff.rfl) fun _ _ => comes_switch

end MiniGo.Running
