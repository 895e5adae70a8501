import MiniGo.Proofs.Running.Assignments
import MiniGo.Proofs.Running.Switches

/-!
# Untyped integers

An expression of integers and operators alone has one outcome, whatever the state (`Constant`). Its value
becomes a float in a slot that holds floats, and stays an integer in any other; the values of all other
expressions stay what they are. A slot is a variable, or what has a type: `written` is the conversion for both,
as a type converts like a variable that was declared with it. `Conversions` lists the slots of the language and
says of each which values it holds at the end, and `untyped_integers_convert` says that it holds of every run.
-/

namespace MiniGo.Running

variable {limit fuel : Nat} {env : Env} {location : Location}

/-! ## Constants -/

/-- An expression has one outcome in all environments and states, and its evaluation changes nothing. -/
def Constant (expr : Expr) (outcome : Except RuntimeError Int64) : Prop :=
  ∀ limit env machine result, Comes (fun fuel => Eval.evaluate limit fuel env expr) machine result ↔
    result = Eval.ofExcept (outcome.map .int) machine

/-- What operators on integers come to: an integer, or one of two errors. -/
def Arithmetic : Except RuntimeError Int64 → Prop
  | .ok _ => True
  | .error error => ∃ location, error = .divisionByZero location ∨ error = .negativeShift location

theorem constant_integer (n : Int64) : Constant (.integer n) (.ok n) :=
  fun _ _ _ _ => (comes_succ rfl).trans comes_pure

section

variable {left right : Expr} {op : BinaryOp} {machine : Machine} {result : EStateM.Result Halt Machine Value}

theorem comes_ofExcept_eq {outcome : Except RuntimeError Value} :
    Comes (fun _ => Eval.ofExcept outcome) machine result ↔ result = Eval.ofExcept outcome machine := by
  rw [comes_ofExcept]
  cases outcome <;> exact Iff.rfl

theorem evaluate_binary (strict : op ≠ .and ∧ op ≠ .or) :
    Eval.evaluate limit (fuel + 1) env (.binary left op right location) = (do
      let first ← Eval.evaluate limit fuel env left
      let second ← Eval.evaluate limit fuel env right
      Eval.ofExcept (Value.binary op (written second first (some left)) (written first second (some right)) location)) := by
  cases op with
  | and => exact absurd rfl strict.1
  | or => exact absurd rfl strict.2
  | _ => simp only [Eval.evaluate, unify_eq]

theorem comes_binary (strict : op ≠ .and ∧ op ≠ .or) :
    Comes (fun fuel => Eval.evaluate limit fuel env (.binary left op right location)) machine result ↔
      Then (Comes (fun fuel => Eval.evaluate limit fuel env left) machine) (fun first middle =>
        Then (Comes (fun fuel => Eval.evaluate limit fuel env right) middle) fun second after result =>
          result = Eval.ofExcept
            (Value.binary op (written second first (some left)) (written first second (some right)) location) after)
        result := by
  rw [comes_succ rfl]
  simp only [evaluate_binary strict]
  rw [comes_bind extends_evaluate fun first => extends_evaluate.bind fun second => .const]
  refine then_congr (fun _ => Iff.rfl) fun first middle => ?_
  rw [comes_bind extends_evaluate fun second => .const]
  exact then_congr (fun _ => Iff.rfl) fun second after => comes_ofExcept_eq

theorem comes_unary {op : UnaryOp} {operand : Expr} :
    Comes (fun fuel => Eval.evaluate limit fuel env (.unary op operand location)) machine result ↔
      Then (Comes (fun fuel => Eval.evaluate limit fuel env operand) machine) (fun value after result =>
        result = Eval.ofExcept (Value.unary op value location) after) result := by
  rw [comes_succ rfl]
  refine (comes_bind extends_evaluate fun value => .const).trans ?_
  exact then_congr (fun _ => Iff.rfl) fun value after => comes_ofExcept_eq

theorem Constant.unary {op : UnaryOp} {operand : Expr} {outcome : Except RuntimeError Int64} {result : Int64 → Int64}
    (constant : Constant operand outcome) (computes : ∀ n, Value.unary op (.int n) location = .ok (.int (result n))) :
    Constant (.unary op operand location) (outcome.map result) := by
  intro limit env machine ended
  rw [comes_unary]
  cases outcome with
  | error error => exact then_error (constant limit env machine)
  | ok n =>
      refine (then_ok (constant limit env machine)).trans ?_
      rw [computes]
      exact Iff.rfl

theorem Constant.binary {first second : Except RuntimeError Int64} {combined : Int64 → Int64 → Except RuntimeError Int64}
    (strict : op ≠ .and ∧ op ≠ .or) (one : Constant left first) (other : Constant right second)
    (computes : ∀ a b, Value.binary op (.int a) (.int b) location = (combined a b).map .int) :
    Constant (.binary left op right location) (do combined (← first) (← second)) := by
  intro limit env machine ended
  rw [comes_binary strict]
  cases first with
  | error error => exact then_error (one limit env machine)
  | ok a =>
      refine (then_ok (one limit env machine)).trans ?_
      cases second with
      | error error => exact then_error (other limit env machine)
      | ok b =>
          refine (then_ok (other limit env machine)).trans ?_
          exact iff_of_eq (congrArg (fun outcome => ended = Eval.ofExcept outcome machine) (computes a b))

end

/-- The arithmetic operators take two integers to an integer, or fail because of the second one. -/
theorem arithmetic_computes {op : BinaryOp} (arithmetic : op.isArithmetic = true) (location : Location) :
    ∃ combined : Int64 → Int64 → Except RuntimeError Int64, ∀ a b,
      Value.binary op (.int a) (.int b) location = (combined a b).map .int ∧ Arithmetic (combined a b) := by
  have each : ∀ a b, ∃ outcome : Except RuntimeError Int64,
      Value.binary op (.int a) (.int b) location = outcome.map .int ∧ Arithmetic outcome := by
    intro a b
    cases op with
    | equal | notEqual | less | lessEqual | greater | greaterEqual | and | or => cases arithmetic
    | divide | remainder =>
        by_cases zero : b = 0
        · exact ⟨.error (.divisionByZero location), if_pos zero, location, Or.inl rfl⟩
        · exact ⟨.ok _, if_neg zero, trivial⟩
    | shiftLeft | shiftRight =>
        by_cases negative : b < 0
        · exact ⟨.error (.negativeShift location), if_pos negative, location, Or.inr rfl⟩
        · by_cases long : 64 ≤ b
          · exact ⟨.ok _, (if_neg negative).trans (if_pos long), trivial⟩
          · exact ⟨.ok _, (if_neg negative).trans (if_neg long), trivial⟩
    | _ => exact ⟨.ok _, rfl, trivial⟩
  choose combined computes using each
  exact ⟨combined, computes⟩

/-- Every untyped integer is a constant. -/
theorem untyped_constant (expr : Expr) (untyped : expr.isUntypedInteger = true) :
    ∃ outcome, Constant expr outcome ∧ Arithmetic outcome := by
  fun_induction Expr.isUntypedInteger expr with
  | case1 n => exact ⟨.ok n, constant_integer n, trivial⟩
  | case2 operand location ih | case3 operand location ih =>
      obtain ⟨outcome, constant, computed⟩ := ih untyped
      refine ⟨_, constant.unary fun n => rfl, ?_⟩
      cases outcome <;> exact computed
  | case4 left op right location ihLeft ihRight =>
      simp only [Bool.and_eq_true] at untyped
      obtain ⟨⟨arithmetic, untypedLeft⟩, untypedRight⟩ := untyped
      obtain ⟨first, one, computedFirst⟩ := ihLeft untypedLeft
      obtain ⟨second, other, computedSecond⟩ := ihRight untypedRight
      obtain ⟨combined, computes⟩ := arithmetic_computes arithmetic location
      have strict : op ≠ .and ∧ op ≠ .or := by constructor <;> (rintro rfl; cases arithmetic)
      refine ⟨_, one.binary strict other fun a b => (computes a b).1, ?_⟩
      cases first with
      | error early => exact computedFirst
      | ok a =>
          cases second with
          | error early => exact computedSecond
          | ok b => exact (computes a b).2
  | case5 => cases untyped

theorem untyped_value {expr : Expr} {value : Value} {before after : Machine} (untyped : expr.isUntypedInteger = true)
    (ran : Eval.evaluate limit fuel env expr before = .ok value after) :
    ∃ n, Constant expr (.ok n) ∧ value = .int n := by
  obtain ⟨outcome, constant, _⟩ := untyped_constant expr untyped
  have ended := (constant limit env before _).mp ⟨fuel, ran, id⟩
  cases outcome with
  | error error => cases ended
  | ok n => exact ⟨n, constant, (EStateM.Result.ok.inj ended).1⟩

/-! ## Values with their expressions -/

/-- The values of a list of expressions: the value of an untyped integer stands in its place together with the
expression, and no other value comes with an untyped integer. -/
structure Sourced (exprs : List Expr) (received : List (Value × Option Expr)) : Prop where
  constants : ∀ (position : Nat) (expr : Expr), exprs[position]? = some expr → expr.isUntypedInteger = true →
    ∃ n, Constant expr (.ok n) ∧ received[position]? = some (Value.int n, some expr)
  sources : ∀ (position : Nat) (value : Value) (expr : Expr), received[position]? = some (value, some expr) → exprs[position]? = some expr

theorem InTurn.sourced {exprs : List Expr} {received : List (Value × Option Expr)} {before after : Machine}
    (ran : InTurn limit env exprs before received after) : Sourced exprs received := by
  induction ran with
  | none => exact ⟨nofun, nofun⟩
  | next first _ ih =>
      refine ⟨fun position expr here untyped => ?_, fun position value expr here => ?_⟩
      · cases position with
        | zero =>
            obtain rfl := Option.some.inj here
            obtain ⟨n, constant, rfl⟩ := untyped_value untyped first
            exact ⟨n, constant, rfl⟩
        | succ position => exact ih.constants position expr here untyped
      · cases position with
        | zero =>
            obtain ⟨_, same⟩ := Prod.mk.inj (Option.some.inj here)
            exact same
        | succ position => exact ih.sources position value expr here

theorem Sourced.of_call {callee : Expr} {args : List Expr} {received : List (Value × Option Expr)}
    (sources : ∀ (position : Nat) (value : Value) (expr : Expr), received[position]? = some (value, some expr) →
      [Expr.call callee args location][position]? = some expr) : Sourced [.call callee args location] received where
  constants := fun position expr here untyped => by
    obtain rfl := List.mem_singleton.mp (List.mem_of_getElem? here)
    cases untyped
  sources := sources

theorem Gathered.sourced {exprs : List Expr} {received : List (Value × Option Expr)} {before after : Machine}
    (gathered : Gathered limit env exprs before received after) : Sourced exprs received := by
  cases gathered with
  | one ran =>
      refine .of_call fun position value expr here => ?_
      cases position with
      | zero =>
          obtain ⟨_, same⟩ := Prod.mk.inj (Option.some.inj here)
          exact same
      | succ position => cases here
  | spread ran several =>
      refine .of_call fun position value expr here => ?_
      obtain ⟨_, _, same⟩ := List.mem_map.mp (List.mem_of_getElem? here)
      cases same
  | each _ ran => exact ran.sourced

/-! ## Slots with types -/

theorem coerce_eq (value : Value) (source : Option Expr) (type : Ty) :
    value.coerce source type = written (.zero type) value source := by
  cases type <;> cases value <;> rfl

/-- A value has to fit the type of its slot. -/
def require (purpose : Purpose) (location : Location) (type : Ty) (value : Value) : Eval Unit :=
  if value.conformsTo type then pure () else Eval.fail (.mismatch (.slot value.kind type purpose) location)

/-- The values of declared names: as they are without a type, else as they are over the zero value of the type. -/
def declaredAs (type? : Option Ty) (received : List (Value × Option Expr)) : List Value :=
  received.map fun (value, source) =>
    match type? with
    | none => value
    | some type => written (.zero type) value source

theorem declaredValue_eq (type : Ty) (value : Value) (source : Option Expr) :
    Eval.declaredValue (some type) location value source = (do
      require .declared location type (written (.zero type) value source)
      pure (written (.zero type) value source)) := by
  simp only [Eval.declaredValue, require, coerce_eq]
  split <;> rfl

theorem declaredValues_eq (type? : Option Ty) (received : List (Value × Option Expr)) :
    Eval.declaredValues type? location received = (do
      forM type? fun type => forM (declaredAs type? received) (require .declared location type)
      pure (declaredAs type? received)) := by
  induction received with
  | nil => cases type? <;> rfl
  | cons pair rest ih =>
      obtain ⟨value, source⟩ := pair
      cases type? with
      | none => simp [Eval.declaredValues, Eval.declaredValue, ih, declaredAs]
      | some type =>
          simp only [Eval.declaredValues, declaredValue_eq, ih, declaredAs, List.map_cons, Option.forM_some, List.forM_cons,
            bind_assoc, pure_bind]

/-- The arguments of a call: as they are over the zero values of the parameters, and behind the last parameter as
they are. -/
def argumentsFor (params : List Parameter) (received : List (Value × Option Expr)) : List Value :=
  received.mapIdx fun position (value, source) =>
    match params[position]? with
    | none => value
    | some param => written (.zero param.type) value source

theorem argumentsFor_nil (received : List (Value × Option Expr)) : argumentsFor [] received = received.map (·.1) := by
  induction received with
  | nil => rfl
  | cons pair rest ih =>
      rw [argumentsFor, List.mapIdx_cons, List.map_cons, ← ih]
      rfl

theorem coerceArguments_eq (params : List Parameter) (received : List (Value × Option Expr)) :
    Eval.coerceArguments params received = argumentsFor params received := by
  induction params generalizing received with
  | nil => rw [Eval.coerceArguments, argumentsFor_nil]
  | cons param params ih =>
      cases received with
      | nil => rfl
      | cons pair rest =>
          rw [Eval.coerceArguments, argumentsFor, List.mapIdx_cons, ih, coerce_eq]
          rfl

/-- The values of a return statement, as they are over the zero values of the results. -/
def returnedAs (types : List Ty) (received : List (Value × Option Expr)) : List Value :=
  List.zipWith (fun type (value, source) => written (.zero type) value source) types received

/-- A value that is returned has to fit its result; if not, the error is at the place of its expression. -/
def requireReturned (location : Location) : Ty × Value × Option Expr → Eval Unit
  | (type, value, source) =>
      require .returned ((source.bind (·.location?)).getD location) type (written (.zero type) value source)

theorem returnedValues_eq (types : List Ty) (received : List (Value × Option Expr)) :
    Eval.returnedValues location types received = (do
      forM (types.zip received) (requireReturned location)
      pure (returnedAs types received)) := by
  induction types generalizing received with
  | nil => rfl
  | cons type types ih =>
      cases received with
      | nil => rfl
      | cons pair rest =>
          obtain ⟨value, source⟩ := pair
          simp only [Eval.returnedValues, ih, returnedAs, List.zip_cons_cons, List.forM_cons, List.zipWith_cons_cons,
            requireReturned, require, coerce_eq]
          split
          · simp
          · rfl

/-! ## Variables -/

/-- Two stores bind the same names to values of the same kinds. -/
structure SameKinds (first second : Store) : Prop where
  size : first.scopes.size = second.scopes.size
  kinds : ∀ id name, ((first.scope id).find? name).map (·.value.kind) = ((second.scope id).find? name).map (·.value.kind)

namespace SameKinds

variable {first second third : Store}

theorem refl (store : Store) : SameKinds store store := ⟨rfl, fun _ _ => rfl⟩

theorem trans (one : SameKinds first second) (two : SameKinds second third) : SameKinds first third :=
  ⟨one.size.trans two.size, fun id name => (one.kinds id name).trans (two.kinds id name)⟩

theorem get? (same : SameKinds first second) (env : Env) (name : String) :
    (first.get? env name).map (·.kind) = (second.get? env name).map (·.kind) := by
  unfold Store.get?
  induction env with
  | nil => rfl
  | cons id outer ih =>
      have here := same.kinds id name
      unfold Store.find?
      cases one : (first.scope id).find? name with
      | none =>
          rw [one, eq_comm, Option.map_none, Option.map_eq_none_iff] at here
          rw [here]
          exact ih
      | some binding =>
          rw [one, eq_comm, Option.map_some, Option.map_eq_some_iff] at here
          obtain ⟨other, two, kind⟩ := here
          rw [two]
          exact congrArg some kind.symm

theorem getLocal? (same : SameKinds first second) (env : Env) (name : String) :
    (first.getLocal? env name).map (·.kind) = (second.getLocal? env name).map (·.kind) := by
  cases env with
  | nil => rfl
  | cons id outer =>
      rw [Store.getLocal?_cons, Store.getLocal?_cons, Option.map_map, Option.map_map]
      exact same.kinds id name

theorem bind (same : SameKinds first second) (env : Env) (name : String) (binding : Binding) :
    SameKinds (first.bind env name binding) (second.bind env name binding) := by
  refine ⟨by rw [Store.size_bind, Store.size_bind, same.size], fun other x => ?_⟩
  by_cases named : name = blankName
  · rw [named, Store.bind_blank, Store.bind_blank]
    exact same.kinds other x
  · cases env with
    | nil =>
        simp only [Store.bind, ite_self]
        exact same.kinds other x
    | cons id outer =>
        by_cases old : id < first.scopes.size
        · rw [Store.find?_bind _ _ _ named old, Store.find?_bind _ _ _ named (same.size ▸ old)]
          split
          · rfl
          · exact same.kinds other x
        · have beyond := Nat.le_of_not_lt old
          rw [Store.bind_of_le _ _ _ _ beyond, Store.bind_of_le _ _ _ _ (same.size ▸ beyond)]
          exact same.kinds other x

theorem write {store : Store} {env : Env} {name : String} {id : ScopeId} {old : Binding} {value : Value}
    (found : store.find? env name = some (id, old)) (kind : value.kind = old.value.kind) :
    SameKinds (store.write id name value) store := by
  have bound := Store.found_in_scope found
  refine ⟨store.size_modify id _, fun other x => ?_⟩
  rw [Store.find?_write bound]
  split
  · rename_i here
    rw [here.1, here.2, bound]
    exact congrArg some kind
  · rfl

end SameKinds

/-- What names get in an assignment, and in a short declaration: a value as it is over the one that its name holds
by then, and the value of a new name as it is. -/
def contents (held : Store → String → Option Value) (env : Env) :
    Store → List String → List (Value × Option Expr) → List Value
  | store, name :: names, (value, source) :: rest =>
      if name = blankName then value :: contents held env store names rest
      else match held store name with
        | some old => written old value source :: contents held env store names rest
        | none => value :: contents held env (store.bind env name ⟨value, true⟩) names rest
  | _, _, _ => []

theorem written_congr {old other : Value} (same : old.kind = other.kind) : written old = written other := by
  funext value source
  rw [written_eq, written_eq, same]

theorem storeValue_kinds {name : String} {value : Value} {source : Option Expr} {before after : Machine}
    (ran : Eval.storeValue env name value source location before = .ok () after) :
    SameKinds after.store before.store := by
  obtain ⟨_, id, old, found, writes, kind⟩ := storeValue_ok ran
  rw [writes]
  exact .write found kind

theorem storeValue_written {name : String} {value current old : Value} {source : Option Expr} {machine : Machine}
    (held : machine.store.get? env name = some current) (kind : current.kind = old.kind) :
    Eval.storeValue env name value source location machine
      = Eval.storeValue env name (written old value source) none location machine := by
  have looked : Eval.lookup env name location machine = .ok current (machine.met (.used env name location)) := by
    unfold Eval.lookup
    rw [held]
  simp only [storeValue_eq, bind_run, looked, written_congr kind, @written_plain none rfl]

theorem storeValue_unknown {name : String} {value : Value} {source : Option Expr} {machine : Machine}
    (unknown : machine.store.get? env name = none) : Eval.storeValue env name value source location machine
      = .error (.fault (.undefined name location)) (machine.met (.used env name location)) := by
  have looked : Eval.lookup env name location machine
      = .error (.fault (.undefined name location)) (machine.met (.used env name location)) := by
    unfold Eval.lookup
    rw [unknown]
  rw [storeValue_eq, bind_run, looked]

/-- What the names of an assignment get can be told before the first of them is written, as a write does not change
the kind of what a name holds. -/
theorem storeValues_contents {names : List String} {received : List (Value × Option Expr)} {machine : Machine}
    {store : Store} (same : SameKinds machine.store store) :
    Eval.storeValues env location names received machine = Eval.storeValues env location names
      ((contents (·.get? env) env store names received).map (·, none)) machine := by
  induction names generalizing received machine store with
  | nil => rfl
  | cons name names ih =>
      cases received with
      | nil => rfl
      | cons pair rest =>
          obtain ⟨value, source⟩ := pair
          by_cases blank : name = blankName
          · simp only [contents, List.map_cons, Eval.storeValues, blank, beq_self_eq_true, if_true]
            exact ih same
          · have kinds := same.get? env name
            have named : (name == blankName) = false := by simpa using blank
            cases held : machine.store.get? env name with
            | none =>
                rw [held, eq_comm, Option.map_none, Option.map_eq_none_iff] at kinds
                simp only [contents, if_neg blank, kinds, List.map_cons, Eval.storeValues, named, Bool.false_eq_true,
                  if_false, bind_run, storeValue_unknown held]
            | some current =>
                rw [held, eq_comm, Option.map_some, Option.map_eq_some_iff] at kinds
                obtain ⟨old, known, kind⟩ := kinds
                simp only [contents, if_neg blank, known, List.map_cons, Eval.storeValues, named, Bool.false_eq_true,
                  if_false, bind_run, ← storeValue_written held kind.symm]
                cases stored : Eval.storeValue env name value source location machine with
                | ok _ after => exact ih ((storeValue_kinds stored).trans same)
                | error halt after => rfl

theorem hasLocal_eq (store : Store) (env : Env) (name : String) :
    store.hasLocal env name = (store.getLocal? env name).isSome := by
  cases env with
  | nil => rfl
  | cons id outer =>
      rw [Store.getLocal?_cons, Option.isSome_map]
      rfl

theorem get?_of_getLocal? {store : Store} {name : String} {value : Value}
    (held : store.getLocal? env name = some value) : store.get? env name = some value := by
  cases env with
  | nil => exact nomatch held
  | cons id outer =>
      obtain ⟨binding, bound, rfl⟩ := Option.map_eq_some_iff.mp held
      simp only [Store.get?, Store.find?, bound, Option.map_some]

theorem defineValues_contents {names : List String} {received : List (Value × Option Expr)} {machine : Machine}
    {store : Store} (same : SameKinds machine.store store) :
    Eval.defineValues env location names received machine = Eval.defineValues env location names
      ((contents (·.getLocal? env) env store names received).map (·, none)) machine := by
  induction names generalizing received machine store with
  | nil => rfl
  | cons name names ih =>
      cases received with
      | nil => rfl
      | cons pair rest =>
          obtain ⟨value, source⟩ := pair
          by_cases blank : name = blankName
          · simp only [contents, List.map_cons, Eval.defineValues, blank, beq_self_eq_true, if_true]
            exact ih same
          · have kinds := same.getLocal? env name
            have named : (name == blankName) = false := by simpa using blank
            have present : Eval.hasLocal env name machine = .ok (machine.store.getLocal? env name).isSome machine := by
              rw [← hasLocal_eq]
              rfl
            cases held : machine.store.getLocal? env name with
            | none =>
                rw [held, eq_comm, Option.map_none, Option.map_eq_none_iff] at kinds
                simp only [contents, if_neg blank, kinds, List.map_cons, Eval.defineValues, named, Bool.false_eq_true,
                  if_false, bind_run, present, held, Option.isSome_none]
                -- A name that stands twice on the left is new at its first place only.
                exact ih (same.bind env name ⟨value, true⟩)
            | some current =>
                rw [held, eq_comm, Option.map_some, Option.map_eq_some_iff] at kinds
                obtain ⟨old, known, kind⟩ := kinds
                simp only [contents, if_neg blank, known, List.map_cons, Eval.defineValues, named, Bool.false_eq_true,
                  if_false, if_true, bind_run, present, held, Option.isSome_some,
                  ← storeValue_written (get?_of_getLocal? held) kind.symm]
                cases stored : Eval.storeValue env name value source location machine with
                | ok _ after => exact ih ((storeValue_kinds stored).trans same)
                | error halt after => rfl

/-! ## All slots -/

/-- How values come into the slots of the language. -/
structure Conversions (limit fuel : Nat) (env : Env) : Prop where
  /-- An untyped integer has one outcome, which is an integer or an error of its operators. -/
  constant : ∀ expr, expr.isUntypedInteger = true → ∃ outcome, Constant expr outcome ∧ Arithmetic outcome
  /-- The integer is the same float in every slot of floats, and itself in all others. -/
  converted : ∀ expr n old, expr.isUntypedInteger = true →
    written old (.int n) (some expr) = if old.kind = .float then .float (floatOfInt n) else .int n
  /-- A value of another expression, or of none, stays as it is. -/
  unconverted : ∀ source value old, (∀ expr, source = some expr → expr.isUntypedInteger = false) →
    written old value source = value
  gathered : ∀ exprs before received after,
    Eval.values limit fuel env exprs before = .ok received after → Sourced exprs received
  declared : ∀ target decl, decl.values ≠ [] → Eval.declare limit (fuel + 1) env target decl = (do
    let received ← Eval.values limit fuel env decl.values
    if received.length = decl.names.length then do
      forM decl.type? fun type => forM (declaredAs decl.type? received) (require .declared decl.location type)
      Eval.bindValues target (!decl.isConst) decl.type? decl.names (declaredAs decl.type? received)
    else Eval.fail (.assignmentCount decl.names.length received.length decl.location))
  assigned : ∀ names exprs location, Eval.statement limit (fuel + 1) env (.assign names exprs location) = (do
    let received ← Eval.values limit fuel env exprs
    if received.length = names.length then do
      let machine ← get
      Eval.storeValues env location names ((contents (·.get? env) env machine.store names received).map (·, none))
      pure .normal
    else Eval.fail (.assignmentCount names.length received.length location))
  defined : ∀ names exprs location, Eval.statement limit (fuel + 1) env (.define names exprs location) = (do
    let received ← Eval.values limit fuel env exprs
    if received.length = names.length then do
      let machine ← get
      Eval.defineValues env location names ((contents (·.getLocal? env) env machine.store names received).map (·, none))
      pure .normal
    else Eval.fail (.assignmentCount names.length received.length location))
  /-- A value without an expression is stored as it is. -/
  stored : ∀ name value location, Eval.storeValue env name value none location = (do
    let current ← Eval.lookup env name location
    if current.kind = value.kind then Eval.assign env name value location
    else Eval.fail (.mismatch (.stored value.kind current.kind) location))
  compounded : ∀ name op expr location, Eval.statement limit (fuel + 1) env (.compound name op expr location) = (do
    let current ← Eval.lookup env name location
    let operand ← Eval.evaluate limit fuel env expr
    let updated ← Eval.ofExcept (Value.binary op current (written current operand (some expr)) location)
    Eval.assign env name updated location
    pure .normal)
  passed : ∀ callee args location, Eval.call limit (fuel + 1) env callee args location = (do
    let function ← Eval.evaluate limit fuel env callee
    let received ← Eval.values limit fuel env args
    let params := match function with
      | .function closure => closure.literal.signature.params
      | _ => []
    let results ← Eval.apply limit fuel function (argumentsFor params received) location
    Eval.meet (.called (.call callee args location) function results)
    pure results)
  returned : ∀ exprs location, exprs ≠ [] → Eval.returning limit (fuel + 1) env exprs location = (do
    let frame := (← Eval.frame?).getD ⟨"", []⟩
    let received ← Eval.values limit fuel env exprs
    if received.length = frame.results.length then do
      forM (frame.results.zip received) (requireReturned location)
      pure (.return (returnedAs frame.results received))
    else Eval.fail (.returnCount frame.function frame.results.length received.length location))
  combined : ∀ op left right location, op ≠ .and ∧ op ≠ .or →
    Eval.evaluate limit (fuel + 1) env (.binary left op right location) = (do
      let first ← Eval.evaluate limit fuel env left
      let second ← Eval.evaluate limit fuel env right
      Eval.ofExcept
        (Value.binary op (written second first (some left)) (written first second (some right)) location))
  /-- The tag of a switch keeps its expression. -/
  tagged : ∀ expr before tag after, Eval.tagValue limit fuel env (some expr) before = .ok tag after →
    ∃ value, tag = some (value, expr)
  matched : ∀ tag tagExpr expr location,
    Eval.caseMatches limit (fuel + 1) env (some (tag, tagExpr)) location expr = (do
      let candidate ← Eval.evaluate limit fuel env expr
      Eval.ofExcept ((written candidate tag (some tagExpr)).equals (written tag candidate (some expr))
        (expr.location?.getD location)))

/-- Untyped integers are converted in all slots alike, and no other values are. -/
theorem untyped_integers_convert (limit fuel : Nat) (env : Env) : Conversions limit fuel env where
  constant := untyped_constant
  converted := fun expr n old untyped => by
    cases old <;> simp [written, Value.kind, untyped]
  unconverted := fun source value old plain => written_plain (by cases source <;> simp [plain]) old value
  gathered := fun exprs before received after ran => (values_gathered ran).sourced
  declared := fun target decl some => by
    obtain ⟨isConst, names, type?, values, location⟩ := decl
    cases values with
    | nil => exact absurd rfl some
    | cons first rest => simp only [Eval.declare, declaredValues_eq, bind_assoc, pure_bind]
  assigned := fun names exprs location => by
    refine congrArg (Eval.values limit fuel env exprs >>= ·) (funext fun received => ?_)
    refine if_congr Iff.rfl (funext fun machine => ?_) rfl
    rw [get_run, bind_run, bind_run, ← storeValues_contents (.refl machine.store)]
  defined := fun names exprs location => by
    refine congrArg (Eval.values limit fuel env exprs >>= ·) (funext fun received => ?_)
    refine if_congr Iff.rfl (funext fun machine => ?_) rfl
    rw [get_run, bind_run, bind_run, ← defineValues_contents (.refl machine.store)]
  stored := fun name value location => by simp only [storeValue_eq, @written_plain none rfl]
  compounded := fun name op expr location => compound_eq
  passed := fun callee args location => by
    refine congrArg (Eval.evaluate limit fuel env callee >>= ·) (funext fun function => ?_)
    refine congrArg (Eval.values limit fuel env args >>= ·) (funext fun received => ?_)
    cases function <;> simp only [coerceArguments_eq, argumentsFor_nil]
  returned := fun exprs location some => by
    cases exprs with
    | nil => exact absurd rfl some
    | cons first rest => simp only [Eval.returning, returnedValues_eq, bind_assoc, pure_bind]
  combined := fun op left right location => evaluate_binary
  tagged := fun expr before tag after ran => by
    cases fuel with
    | zero => cases ran
    | succ fuel =>
        obtain ⟨value, _, _, ran⟩ := eval_bind_ok ran
        obtain ⟨rfl, _⟩ := EStateM.Result.ok.inj ran
        exact ⟨value, rfl⟩
  matched := fun tag tagExpr expr location => by
    simp only [Eval.caseMatches, unify_eq]

end MiniGo.Running
