import MiniGo.Proofs.Package.Workspaces
import MiniGo.Proofs.Running.Depth

/-!
# Steps without frames

The evaluator looks up names, writes variables and applies operators without a look at the active calls. Such a
step keeps their frames, and when it fails it is not because too many calls are active (`Plain`).
-/

namespace MiniGo.Running

variable {α β : Type} {env : Env} {name : String} {location : Location}

/-! ## Operations -/

/-- The result of an operation is no error about too many active calls. -/
def Shallow : Except RuntimeError α → Prop
  | .ok _ => True
  | .error error => ¬ TooDeep (.fault error)

theorem shallow_intOp (op : BinaryOp) (a b : Int64) : Shallow (Value.intOp op a b location) := by
  cases op with
  | divide | remainder =>
      unfold Value.intOp
      dsimp only
      split
      · exact id
      · trivial
  | shiftLeft | shiftRight =>
      unfold Value.intOp
      dsimp only
      split
      · exact id
      · split <;> trivial
  | _ => first | trivial | exact id

theorem shallow_floatOp (op : BinaryOp) (a b : Float) : Shallow (Value.floatOp op a b location) := by
  cases op with
  | divide =>
      unfold Value.floatOp
      dsimp only
      split
      · exact id
      · trivial
  | less | lessEqual | greater | greaterEqual =>
      unfold Value.floatOp
      cases Value.floatOrder? a b <;> trivial
  | _ =>
      unfold Value.floatOp
      first | trivial | (cases Value.floatOrder? a b <;> exact id)

theorem shallow_equals (left right : Value) : Shallow (left.equals right location) := by
  unfold Value.equals
  split
  · trivial
  · trivial
  · trivial
  · trivial
  · split <;> exact id

theorem shallow_binary (op : BinaryOp) (left right : Value) : Shallow (Value.binary op left right location) := by
  -- Equality and its negation compare first, whatever the values are.
  have compares (render : Bool → Value) : Shallow (do
      let outcome ← left.equals right location
      pure (render outcome)) := by
    have equals : Shallow (left.equals right location) := shallow_equals left right
    cases outcome : left.equals right location with
    | ok equal => trivial
    | error error =>
        rw [outcome] at equals
        exact equals
  unfold Value.binary
  split
  · exact compares .bool
  · exact compares fun outcome => .bool !outcome
  · split
    · exact shallow_intOp op _ _
    · exact shallow_floatOp op _ _
    · unfold Value.stringOp
      split
      · trivial
      · split
        · trivial
        · exact id
    · unfold Value.boolOp
      split
      · trivial
      · trivial
      · exact id
    · split <;> exact id

theorem shallow_unary (op : UnaryOp) (operand : Value) : Shallow (Value.unary op operand location) := by
  unfold Value.unary
  split <;> first | trivial | exact id

theorem shallow_asBool (value : Value) : Shallow (value.asBool location) := by
  cases value <;> first | trivial | exact id

theorem shallow_builtin (function : Builtin) (args : List Value) : Shallow (function.call args location) := by
  unfold Builtin.call
  split <;> first | trivial | (split <;> first | trivial | exact id)

theorem shallow_target (store : Store) : Shallow (store.target env name location) := by
  unfold Store.target
  split
  · exact id
  · split
    · trivial
    · exact id

/-! ## Steps without frames -/

theorem eval_bind_error {action : Eval α} {next : α → Eval β} {machine last : Machine} {halt : Halt}
    (halted : (action >>= next) machine = .error halt last) :
    action machine = .error halt last ∨ ∃ value after, action machine = .ok value after ∧ next value after = .error halt last := by
  rw [bind_run] at halted
  cases first : action machine with
  | error early after =>
      rw [first] at halted
      obtain ⟨rfl, rfl⟩ := EStateM.Result.error.inj halted
      exact Or.inl rfl
  | ok value after =>
      rw [first] at halted
      exact Or.inr ⟨value, after, rfl, halted⟩

/-- A computation has the same frames at its end as at its beginning, however it ends. -/
def KeepsCalls (action : Eval α) : Prop := ∀ machine, (behind (action machine)).calls = machine.calls

theorem KeepsCalls.ran {action : Eval α} (keeps : KeepsCalls action) {value : α} {before after : Machine}
    (ran : action before = .ok value after) : after.calls = before.calls := by
  have same := keeps before
  rw [ran] at same
  exact same

theorem KeepsCalls.then {action : Eval α} {next : α → Eval β} {before : Machine} (keeps : KeepsCalls action)
    (rest : ∀ value middle, action before = .ok value middle → (behind (next value middle)).calls = middle.calls) :
    (behind ((action >>= next) before)).calls = before.calls := by
  have same := keeps before
  rw [bind_run]
  cases ran : action before with
  | ok value middle => exact (rest value middle ran).trans (keeps.ran ran)
  | error halt after =>
      rw [ran] at same
      exact same

/-- A computation keeps the frames and does not stop because too many calls are active. -/
structure Plain (action : Eval α) : Prop where
  calls : KeepsCalls action
  shallow : ∀ machine halt after, action machine = .error halt after → ¬ TooDeep halt

namespace Plain

variable {action : Eval α} {next : α → Eval β}

theorem of_ok (runs : ∀ machine, ∃ value after, action machine = .ok value after ∧ after.calls = machine.calls) :
    Plain action where
  calls := fun machine => by
    obtain ⟨value, after, ran, same⟩ := runs machine
    rw [ran]
    exact same
  shallow := fun machine halt last halted => by
    obtain ⟨value, after, ran, _⟩ := runs machine
    rw [ran] at halted
    cases halted

theorem pure {value : α} : Plain (Pure.pure value) := .of_ok fun machine => ⟨value, machine, rfl, rfl⟩

theorem fail {error : RuntimeError} (shallow : ¬ TooDeep (.fault error)) : Plain (Eval.fail error : Eval α) where
  calls := fun _ => rfl
  shallow := fun machine halt after halted => by
    obtain ⟨rfl, _⟩ := EStateM.Result.error.inj halted
    exact shallow

theorem bind (first : Plain action) (rest : ∀ value, Plain (next value)) : Plain (action >>= next) where
  calls := fun _ => first.calls.then fun value middle _ => (rest value).calls middle
  shallow := fun machine halt after halted => by
    rcases eval_bind_error halted with early | ⟨value, middle, _, late⟩
    · exact first.shallow machine halt after early
    · exact (rest value).shallow middle halt after late

theorem choice {condition : Prop} [Decidable condition] {yes no : Eval α} (one : Plain yes) (two : Plain no) :
    Plain (if condition then yes else no) := by
  split
  · exact one
  · exact two

theorem ofExcept {result : Except RuntimeError α} (shallow : Shallow result) : Plain (Eval.ofExcept result) := by
  cases result with
  | ok value => exact .pure
  | error error => exact .fail shallow

theorem meet {event : Event} : Plain (Eval.meet event) := .of_ok fun machine => ⟨(), machine.met event, rfl, rfl⟩

theorem frame? : Plain Eval.frame? := .of_ok fun machine => ⟨_, machine, rfl, rfl⟩

theorem openScope : Plain (Eval.openScope env) := .of_ok fun _ => ⟨_, _, rfl, rfl⟩

theorem bindTyped {type? : Option Ty} {value : Value} {mutable : Bool} :
    Plain (Eval.bindTyped env name type? value mutable) := .of_ok fun _ => ⟨_, _, rfl, rfl⟩

theorem lookup? : Plain (Eval.lookup? env name location) := .of_ok fun _ => ⟨_, _, rfl, rfl⟩

theorem lookupLocal? : Plain (Eval.lookupLocal? env name) := .of_ok fun machine => ⟨_, machine, rfl, rfl⟩

theorem hasLocal : Plain (Eval.hasLocal env name) := .of_ok fun machine => ⟨_, machine, rfl, rfl⟩

theorem makeClosure {literal : FunctionLiteral} : Plain (Eval.makeClosure name literal env) :=
  .of_ok fun _ => ⟨_, _, rfl, rfl⟩

theorem lookup : Plain (Eval.lookup env name location) := by
  constructor
  · intro machine
    unfold Eval.lookup
    split <;> rfl
  · intro machine halt after halted
    unfold Eval.lookup at halted
    split at halted <;> cases halted
    exact id

theorem assign {value : Value} : Plain (Eval.assign env name value location) where
  calls := fun machine => by
    unfold Eval.assign
    split <;> rfl
  shallow := fun machine halt after halted => by
    have shallow : Shallow (machine.store.target env name location) := shallow_target machine.store
    unfold Eval.assign at halted
    split at halted
    · cases halted
    · rename_i error found
      obtain ⟨rfl, _⟩ := EStateM.Result.error.inj halted
      rw [found] at shallow
      exact shallow

theorem callBuiltin {function : Builtin} {args : List Value} : Plain (Eval.callBuiltin function args location) where
  calls := fun machine => by
    unfold Eval.callBuiltin
    split <;> rfl
  shallow := fun machine halt after halted => by
    have shallow : Shallow (function.call args location) := shallow_builtin function args
    unfold Eval.callBuiltin at halted
    split at halted
    · cases halted
    · rename_i error called
      obtain ⟨rfl, _⟩ := EStateM.Result.error.inj halted
      rw [called] at shallow
      exact shallow

/-! ### Names and values -/

theorem qualified {package : String} : Plain (Eval.qualified env package name location) := by
  refine .bind .meet fun _ => .bind .lookup? fun found => ?_
  split
  · refine .choice (.bind .lookupLocal? fun value? => ?_) (.fail id)
    cases value? with
    | none => exact .fail id
    | some value => exact .pure
  · exact .fail id
  · exact .fail id

theorem literalName : Plain Eval.literalName := by
  refine .bind .frame? fun frame? => ?_
  cases frame? <;> exact .pure

theorem storeValue {value : Value} {source : Option Expr} :
    Plain (Eval.storeValue env name value source location) :=
  .bind .lookup fun _ => .choice .assign (.fail id)

theorem storeValues {names : List String} {received : List (Value × Option Expr)} :
    Plain (Eval.storeValues env location names received) := by
  induction names generalizing received with
  | nil => exact .pure
  | cons name names ih =>
      cases received with
      | nil => exact .pure
      | cons pair received =>
          rw [Eval.storeValues]
          exact .choice ih (.bind .storeValue fun _ => ih)

theorem defineValues {names : List String} {received : List (Value × Option Expr)} :
    Plain (Eval.defineValues env location names received) := by
  induction names generalizing received with
  | nil => exact .pure
  | cons name names ih =>
      cases received with
      | nil => exact .pure
      | cons pair received =>
          rw [Eval.defineValues]
          exact .choice ih (.bind .hasLocal fun _ => .choice (.bind .storeValue fun _ => ih) (.bind .bindTyped fun _ => ih))

theorem bindValues {mutable : Bool} {type? : Option Ty} {names : List String} {values : List Value} :
    Plain (Eval.bindValues env mutable type? names values) := by
  induction names generalizing values with
  | nil => exact .pure
  | cons name names ih =>
      cases values with
      | nil => exact .pure
      | cons value values => exact .bind .bindTyped fun _ => ih

theorem declaredValues {type? : Option Ty} {received : List (Value × Option Expr)} :
    Plain (Eval.declaredValues type? location received) := by
  induction received with
  | nil => exact .pure
  | cons pair rest ih =>
      obtain ⟨value, source⟩ := pair
      have first : Plain (Eval.declaredValue type? location value source) := by
        cases type? with
        | none => exact .pure
        | some type => exact .choice .pure (.fail id)
      exact .bind first fun _ => .bind ih fun _ => .pure

theorem returnedValues {types : List Ty} {received : List (Value × Option Expr)} :
    Plain (Eval.returnedValues location types received) := by
  induction types generalizing received with
  | nil => exact .pure
  | cons type types ih =>
      cases received with
      | nil => exact .pure
      | cons pair received =>
          rw [Eval.returnedValues]
          exact .choice (.bind ih fun _ => .pure) (.fail id)

theorem bindParameters {params : List Parameter} {args : List Value} :
    Plain (Eval.bindParameters env name location params args) := by
  induction params generalizing args with
  | nil => exact .pure
  | cons param params ih =>
      cases args with
      | nil => exact .pure
      | cons arg args =>
          rw [Eval.bindParameters]
          exact .choice (.bind .bindTyped fun _ => ih) (.bind (.fail id) fun _ => ih)

theorem bindResults {names : List String} {types : List Ty} : Plain (Eval.bindResults env names types) := by
  induction names generalizing types with
  | nil => exact .pure
  | cons name names ih =>
      cases types with
      | nil => exact .pure
      | cons type types => exact .bind .bindTyped fun _ => ih

theorem resultsOf {signature : Signature} {flow : Flow} : Plain (Eval.resultsOf env signature flow) := by
  have named : ∀ names types, Plain (Eval.namedResults env names types) := by
    intro names types
    induction names generalizing types with
    | nil => exact .pure
    | cons name names ih =>
        cases types with
        | nil => exact .pure
        | cons type types => exact .bind .lookupLocal? fun _ => .bind (ih types) fun _ => .pure
  unfold Eval.resultsOf
  split
  · exact .choice .pure (named _ _)
  · exact .pure
  · exact .pure

theorem stepped {up : Bool} {value : Value} : Plain (Eval.stepped name up location value) := by
  unfold Eval.stepped
  split
  · exact .pure
  · exact .pure
  · exact .fail id

end Plain

end MiniGo.Running
