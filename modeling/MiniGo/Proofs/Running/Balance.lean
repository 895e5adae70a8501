import MiniGo.Proofs.Package.Counts
import MiniGo.Proofs.Running.Calls

/-!
# Numbers of values in a run

A call gives as many values as the function has that it calls. `Accounts` says so of the calls behind a
machine, and that values were counted in the bodies of all functions in its store. `Balances` is a
triple about computations that keep this: when one stops because of a number of values, then directly
behind a call of which the checker did not know that it gives this number.
-/

namespace MiniGo.Running

open Lexical

/-- How many values a function gives. -/
def resultCount : Value → Nat
  | .function closure => closure.literal.signature.results.length
  | .builtin found => found.results.length
  | _ => 0

/-- How many values there were, of an error about a number of values. -/
def miscount? : RuntimeError → Option Nat
  | .noValue _ => some 0
  | .multiValue found _ | .assignmentCount _ found _ | .returnCount _ _ found _ => some found
  | _ => none

theorem Operational.miscount?_none {error : RuntimeError} (operational : Operational error) :
    miscount? error = none := by
  cases error with
  | multiValue | noValue | returnCount | assignmentCount => exact operational.elim
  | _ => rfl

/-- What an event says of numbers of values. -/
def Event.Counts : Event → Prop
  | .called _ function results => results.length = resultCount function
  | _ => True

section

variable (counts : Counts)

/-- A function among the values of a program has a body in which values were counted. -/
def HasCounts (value : Value) : Prop :=
  ∀ closure, value = .function closure → Counted.function counts closure.literal

/-- A call has just given the number of values that its function has, and the checker did not find this
number. -/
def Miscounted (machine : Machine) (found : Nat) : Prop :=
  ∃ call function results count?, machine.past machine.store (.called call function results) ∧
    results.length = found ∧ resultCount function = found ∧ counts call count? ∧ count? ≠ some found

/-- A halt because of a number of values comes directly behind a call that gave this number. -/
def Explained (machine : Machine) : Halt → Prop
  | .fault error => ∀ found, miscount? error = some found → Miscounted counts machine found
  | .exhausted => True

/-- The calls behind a machine gave as many values as their functions have, and values were counted in
the functions of its store. -/
structure Accounts (machine : Machine) : Prop where
  stored : ∀ id name binding, (machine.store.scope id).find? name = some binding →
    HasCounts counts binding.value
  past : ∀ store event, machine.past store event → Event.Counts event

/-- How a computation ends that keeps accounts. -/
def Balanced (calls : CallStack) (post : α → Machine → Prop) : EStateM.Result Halt Machine α → Prop
  | .ok value next => next.calls = calls ∧ Accounts counts next ∧ post value next
  | .error halt next => Accounts counts next ∧ Explained counts next halt

/-- A computation keeps accounts, and `post` holds of its result. -/
def Balances (calls : CallStack) (action : Eval α) (post : α → Machine → Prop) : Prop :=
  ∀ machine, Accounts counts machine → machine.calls = calls → Balanced counts calls post (action machine)

end

variable {counts : Counts} {calls : CallStack}

/-! ## Values -/

/-- Values among which functions have bodies in which values were counted. -/
abbrev AllHaveCounts (counts : Counts) (values : List Value) : Prop := ∀ value ∈ values, HasCounts counts value

/-- Values with their expressions, as `AllHaveCounts`. -/
abbrev PairsHaveCounts (counts : Counts) (received : List (Value × Option Expr)) : Prop :=
  ∀ pair ∈ received, HasCounts counts pair.1

theorem hasCounts_of_scalar {value : Value} (scalar : isScalar value.kind = true) :
    HasCounts counts value := by
  rintro closure rfl
  cases scalar

theorem hasCounts_zero (type : Ty) : HasCounts counts (.zero type) := by
  intro closure same
  cases type <;> cases same

theorem HasCounts.coerce {value : Value} (has : HasCounts counts value) (source : Option Expr) (type : Ty) :
    HasCounts counts (value.coerce source type) := by
  unfold Value.coerce
  split
  · split
    · exact hasCounts_of_scalar rfl
    · exact has
  · exact has

/-! ## Steps of machines -/

theorem Accounts.met {machine : Machine} {event : Event} (accounts : Accounts counts machine)
    (good : Event.Counts event) : Accounts counts (machine.met event) where
  stored := accounts.stored
  past store other happened := by
    rcases happened with earlier | ⟨_, rfl⟩
    · exact accounts.past store other earlier
    · exact good

theorem Accounts.find? {machine : Machine} (accounts : Accounts counts machine) {env : Env} {name : String}
    {value : Value} (found : machine.store.get? env name = some value) : HasCounts counts value := by
  unfold Store.get? at found
  obtain ⟨⟨id, binding⟩, known, rfl⟩ := Option.map_eq_some_iff.mp found
  clear found
  induction env with
  | nil => cases known
  | cons first outer ih =>
      unfold Store.find? at known
      split at known
      · rename_i here bound
        cases known
        exact accounts.stored _ _ _ bound
      · exact ih known

theorem Accounts.getLocal? {machine : Machine} (accounts : Accounts counts machine) {env : Env} {name : String}
    {value : Value} (found : machine.store.getLocal? env name = some value) : HasCounts counts value := by
  unfold Store.getLocal? at found
  split at found
  · cases found
  · obtain ⟨binding, bound, rfl⟩ := Option.map_eq_some_iff.mp found
    exact accounts.stored _ _ _ bound

/-- A binding that is found behind the change of a scope is the new one, or was there. -/
theorem found_modify_insert {store : Store} {id other : ScopeId} {name x : String} {binding found : Binding}
    (bound : ((store.modify id (·.insert name binding)).scope other).find? x = some found) :
    found = binding ∨ (store.scope other).find? x = some found := by
  by_cases old : id < store.scopes.size
  · rw [Store.find?_modify_insert store name binding old] at bound
    split at bound
    · exact Or.inl (Option.some.inj bound).symm
    · exact Or.inr bound
  · rw [store.modify_of_le (Nat.le_of_not_lt old)] at bound
    exact Or.inr bound

theorem found_bind {store : Store} {env : Env} {other : ScopeId} {name x : String} {binding found : Binding}
    (bound : ((store.bind env name binding).scope other).find? x = some found) :
    found = binding ∨ (store.scope other).find? x = some found := by
  unfold Store.bind at bound
  split at bound
  · exact Or.inr bound
  · split at bound
    · exact Or.inr bound
    · exact found_modify_insert bound

namespace Balances

/-! ## Putting computations together -/

theorem pure {value : α} {post : α → Machine → Prop} (holds : ∀ machine, post value machine) :
    Balances counts calls (Pure.pure value) post :=
  fun machine accounts same => ⟨same, accounts, holds machine⟩

/-- The next computation may use what is known of the machine at its start. -/
theorem bindNow {action : Eval α} {next : α → Eval β} {middle : α → Machine → Prop}
    {post : β → Machine → Prop} (first : Balances counts calls action middle)
    (rest : ∀ value machine, Accounts counts machine → machine.calls = calls → middle value machine →
      Balanced counts calls post (next value machine)) :
    Balances counts calls (action >>= next) post := by
  intro machine accounts same
  have ran := first machine accounts same
  change Balanced counts calls post (EStateM.bind action next machine)
  unfold EStateM.bind
  cases outcome : action machine with
  | error halt after =>
      rw [outcome] at ran
      exact ran
  | ok value after =>
      rw [outcome] at ran
      exact rest value after ran.2.1 ran.1 ran.2.2

theorem bind {action : Eval α} {next : α → Eval β} {middle : α → Prop} {post : β → Machine → Prop}
    (first : Balances counts calls action fun value _ => middle value)
    (rest : ∀ value, middle value → Balances counts calls (next value) post) :
    Balances counts calls (action >>= next) post :=
  first.bindNow fun value machine accounts same holds => rest value holds machine accounts same

theorem weaken {action : Eval α} {post other : α → Machine → Prop} (balances : Balances counts calls action post)
    (imp : ∀ value machine, post value machine → other value machine) : Balances counts calls action other := by
  intro machine accounts same
  have ran := balances machine accounts same
  cases outcome : action machine with
  | error halt after =>
      rw [outcome] at ran
      exact ran
  | ok value after =>
      rw [outcome] at ran
      exact ⟨ran.1, ran.2.1, imp value after ran.2.2⟩

theorem fail {error : RuntimeError} {post : α → Machine → Prop} (operational : miscount? error = none) :
    Balances counts calls (Eval.fail error) post := by
  refine fun machine accounts _ => ⟨accounts, fun found same => ?_⟩
  rw [operational] at same
  cases same

theorem exhausted {post : α → Machine → Prop} : Balances counts calls Eval.exhausted post :=
  fun _ accounts _ => ⟨accounts, trivial⟩

theorem ofExcept {result : Except RuntimeError α} {post : α → Machine → Prop}
    (holds : ∀ value, result = .ok value → ∀ machine, post value machine)
    (operational : ∀ error, result = .error error → Operational error) :
    Balances counts calls (Eval.ofExcept result) post := by
  cases result with
  | ok value => exact pure (holds value rfl)
  | error error => exact fail (operational error rfl).miscount?_none

theorem inFrame {frame : Frame} {body : Eval α} {post : α → Prop}
    (balances : Balances counts (calls.push frame) body fun value _ => post value) :
    Balances counts calls (Eval.inFrame frame body) fun value _ => post value := by
  intro machine accounts same
  have ran := balances { machine with calls := machine.calls.push frame } ⟨accounts.stored, accounts.past⟩
    (by rw [same])
  unfold Eval.inFrame
  cases outcome : body { machine with calls := machine.calls.push frame } with
  | error halt after =>
      rw [outcome] at ran
      obtain ⟨accountsLater, explained⟩ := ran
      refine ⟨⟨accountsLater.stored, accountsLater.past⟩, ?_⟩
      cases halt <;> exact explained
  | ok value after =>
      rw [outcome] at ran
      obtain ⟨kept, accountsLater, holds⟩ := ran
      exact ⟨by simp only [kept, CallStack.pop_push], ⟨accountsLater.stored, accountsLater.past⟩, holds⟩

/-! ## Steps of the machine -/

theorem depth : Balances counts calls Eval.depth fun _ _ => True :=
  fun _ accounts same => ⟨same, accounts, trivial⟩

theorem frame? : Balances counts calls Eval.frame? fun found _ => found = calls.frames.head? :=
  fun machine accounts same => ⟨same, accounts, by rw [← same]⟩

theorem meet {event : Event} (good : Event.Counts event) :
    Balances counts calls (Eval.meet event) fun _ machine => machine.past machine.store event :=
  fun _ accounts same => ⟨same, accounts.met good, Or.inr ⟨rfl, rfl⟩⟩

theorem openScope {env : Env} : Balances counts calls (Eval.openScope env) fun _ _ => True := by
  intro machine accounts same
  have met : Accounts counts (machine.met (.opened env)) := accounts.met trivial
  refine ⟨same, ⟨fun id name binding found => ?_, met.past⟩, trivial⟩
  have found : ((machine.store.child env).2.scope id).find? name = some binding := found
  rw [Store.scope_child] at found
  exact accounts.stored id name binding found

theorem bindTyped {env : Env} {name : String} {type? : Option Ty} {value : Value} {mutable : Bool}
    (has : HasCounts counts value) :
    Balances counts calls (Eval.bindTyped env name type? value mutable) fun _ _ => True := by
  intro machine accounts same
  have met : Accounts counts (machine.met (.bound env name ⟨value, mutable⟩ type?)) := accounts.met trivial
  refine ⟨same, ⟨fun id other binding found => ?_, met.past⟩, trivial⟩
  rcases found_bind found with rfl | before
  · exact has
  · exact accounts.stored id other binding before

theorem lookup? {env : Env} {name : String} {location : Location} :
    Balances counts calls (Eval.lookup? env name location) fun found _ =>
      ∀ value, found = some value → HasCounts counts value :=
  fun _ accounts same => ⟨same, accounts.met trivial, fun _ found => accounts.find? found⟩

theorem lookup {env : Env} {name : String} {location : Location} :
    Balances counts calls (Eval.lookup env name location) fun value _ => HasCounts counts value := by
  intro machine accounts same
  unfold Eval.lookup
  split
  · rename_i found
    exact ⟨same, accounts.met trivial, accounts.find? found⟩
  · exact ⟨accounts.met trivial, fun _ absurd => by cases absurd⟩

theorem lookupLocal? {env : Env} {name : String} :
    Balances counts calls (Eval.lookupLocal? env name) fun found _ =>
      ∀ value, found = some value → HasCounts counts value :=
  fun _ accounts same => ⟨same, accounts, fun _ found => accounts.getLocal? found⟩

theorem hasLocal {env : Env} {name : String} :
    Balances counts calls (Eval.hasLocal env name) fun _ _ => True :=
  fun _ accounts same => ⟨same, accounts, trivial⟩

theorem assign {env : Env} {name : String} {value : Value} {location : Location}
    (has : HasCounts counts value) :
    Balances counts calls (Eval.assign env name value location) fun _ _ => True := by
  intro machine accounts same
  have met : Accounts counts (machine.met (.used env name location)) := accounts.met trivial
  unfold Eval.assign
  split
  · refine ⟨same, ⟨fun id other binding found => ?_, met.past⟩, trivial⟩
    rcases found_modify_insert found with rfl | before
    · exact has
    · exact accounts.stored id other binding before
  · rename_i error target
    refine ⟨met, fun found wrong => ?_⟩
    unfold Store.target at target
    split at target
    · cases target
      cases wrong
    · split at target <;> cases target
      cases wrong

theorem literalName : Balances counts calls Eval.literalName fun _ _ => True := by
  refine frame?.bind fun found _ => ?_
  cases found <;> exact .pure fun _ => trivial

theorem makeClosure {name : String} {literal : FunctionLiteral} {env : Env}
    (counted : Counted.function counts literal) :
    Balances counts calls (Eval.makeClosure name literal env) fun value _ => HasCounts counts value := by
  intro machine accounts same
  refine ⟨same, ⟨accounts.stored, accounts.past⟩, fun closure isClosure => ?_⟩
  cases isClosure
  exact counted

theorem callBuiltin {function : Builtin} {args : List Value} {location : Location} :
    Balances counts calls (Eval.callBuiltin function args location) fun results _ =>
      AllHaveCounts counts results ∧ results.length = function.results.length := by
  intro machine accounts same
  unfold Eval.callBuiltin
  cases result : function.call args location with
  | ok pair =>
      exact ⟨same, ⟨accounts.stored, accounts.past⟩,
        fun value member => hasCounts_of_scalar (builtin_scalar result value member), builtin_length result⟩
  | error error =>
      refine ⟨accounts, fun found wrong => ?_⟩
      rw [(builtin_operational result).miscount?_none] at wrong
      cases wrong

/-! ## Variables -/

theorem qualified {env : Env} {package name : String} {location : Location} :
    Balances counts calls (Eval.qualified env package name location) fun value _ => HasCounts counts value := by
  unfold Eval.qualified
  have selected : Balances counts calls (Eval.meet (.selected env package name location)) _ := meet trivial
  refine (selected.weaken fun _ _ _ => trivial).bind fun _ _ => lookup?.bind fun found _ => ?_
  split
  · split
    · refine lookupLocal?.bind fun member has => ?_
      split
      · exact .pure fun _ => has _ rfl
      · exact .fail rfl
    · exact .fail rfl
  · exact .fail rfl
  · exact .fail rfl

theorem storeValue {env : Env} {name : String} {value : Value} {source : Option Expr} {location : Location}
    (has : HasCounts counts value) :
    Balances counts calls (Eval.storeValue env name value source location) fun _ _ => True := by
  unfold Eval.storeValue
  refine lookup.bind fun current _ => ?_
  have stored : ∀ value, HasCounts counts value → Balances counts calls
      (if current.kind = value.kind then Eval.assign env name value location
        else Eval.fail (.mismatch (.stored value.kind current.kind) location)) fun _ _ => True := by
    intro value has
    split
    · exact assign has
    · exact .fail rfl
  refine stored _ ?_
  split
  · exact has.coerce source .float
  · exact has

theorem storeValues {env : Env} {location : Location} {names : List String}
    {received : List (Value × Option Expr)} (all : PairsHaveCounts counts received) :
    Balances counts calls (Eval.storeValues env location names received) fun _ _ => True := by
  induction names generalizing received with
  | nil => exact .pure fun _ => trivial
  | cons name names ih =>
      cases received with
      | nil => exact .pure fun _ => trivial
      | cons pair received =>
          obtain ⟨first, rest⟩ := List.forall_mem_cons.mp all
          rw [Eval.storeValues]
          split
          · exact ih rest
          · exact (storeValue first).bind fun _ _ => ih rest

theorem defineValues {env : Env} {location : Location} {names : List String}
    {received : List (Value × Option Expr)} (all : PairsHaveCounts counts received) :
    Balances counts calls (Eval.defineValues env location names received) fun _ _ => True := by
  induction names generalizing received with
  | nil => exact .pure fun _ => trivial
  | cons name names ih =>
      cases received with
      | nil => exact .pure fun _ => trivial
      | cons pair received =>
          obtain ⟨first, rest⟩ := List.forall_mem_cons.mp all
          rw [Eval.defineValues]
          split
          · exact ih rest
          · refine hasLocal.bind fun found _ => ?_
            split
            · exact (storeValue first).bind fun _ _ => ih rest
            · exact (bindTyped first).bind fun _ _ => ih rest

theorem bindValues {env : Env} {mutable : Bool} {type? : Option Ty} {names : List String} {values : List Value}
    (all : AllHaveCounts counts values) :
    Balances counts calls (Eval.bindValues env mutable type? names values) fun _ _ => True := by
  induction names generalizing values with
  | nil => exact .pure fun _ => trivial
  | cons name names ih =>
      cases values with
      | nil => exact .pure fun _ => trivial
      | cons value values =>
          obtain ⟨first, rest⟩ := List.forall_mem_cons.mp all
          exact (bindTyped first).bind fun _ _ => ih rest

theorem declaredValues {type? : Option Ty} {location : Location} {received : List (Value × Option Expr)}
    (all : PairsHaveCounts counts received) :
    Balances counts calls (Eval.declaredValues type? location received) fun values _ =>
      AllHaveCounts counts values := by
  induction received with
  | nil => exact .pure fun _ value member => absurd member List.not_mem_nil
  | cons pair received ih =>
      obtain ⟨value, source⟩ := pair
      obtain ⟨first, rest⟩ := List.forall_mem_cons.mp all
      have declared : Balances counts calls (Eval.declaredValue type? location value source)
          fun value _ => HasCounts counts value := by
        unfold Eval.declaredValue
        cases type? with
        | none => exact .pure fun _ => first
        | some type =>
            dsimp only
            split
            · exact .pure fun _ => first.coerce source type
            · exact .fail rfl
      exact declared.bind fun _ has => (ih rest).bind fun _ others =>
        .pure fun _ => List.forall_mem_cons.mpr ⟨has, others⟩

theorem returnedValues {location : Location} {types : List Ty} {received : List (Value × Option Expr)}
    (all : PairsHaveCounts counts received) (count : received.length = types.length) :
    Balances counts calls (Eval.returnedValues location types received) fun values _ =>
      AllHaveCounts counts values ∧ values.length = types.length := by
  induction types generalizing received with
  | nil => exact .pure fun _ => ⟨fun value member => absurd member List.not_mem_nil, rfl⟩
  | cons type types ih =>
      cases received with
      | nil => cases count
      | cons pair received =>
          obtain ⟨first, rest⟩ := List.forall_mem_cons.mp all
          unfold Eval.returnedValues
          dsimp only
          split
          · refine (ih rest (Nat.succ.inj count)).bind fun values both => .pure fun _ => ?_
            exact ⟨List.forall_mem_cons.mpr ⟨first.coerce pair.2 type, both.1⟩, congrArg (· + 1) both.2⟩
          · exact .fail rfl

/-! ## Calls -/

theorem bindParameters {env : Env} {function : String} {location : Location} {params : List Parameter}
    {args : List Value} (all : AllHaveCounts counts args) :
    Balances counts calls (Eval.bindParameters env function location params args) fun _ _ => True := by
  induction params generalizing args with
  | nil => exact .pure fun _ => trivial
  | cons param params ih =>
      cases args with
      | nil => exact .pure fun _ => trivial
      | cons arg args =>
          obtain ⟨first, rest⟩ := List.forall_mem_cons.mp all
          rw [Eval.bindParameters]
          split
          · exact (bindTyped first).bind fun _ _ => ih rest
          · exact fun machine accounts same => ⟨accounts, fun _ wrong => by cases wrong⟩

theorem bindResults {env : Env} {names : List String} {types : List Ty} :
    Balances counts calls (Eval.bindResults env names types) fun _ _ => True := by
  induction names generalizing types with
  | nil => exact .pure fun _ => trivial
  | cons name names ih =>
      cases types with
      | nil => exact .pure fun _ => trivial
      | cons type types => exact (bindTyped (hasCounts_zero type)).bind fun _ _ => ih

theorem namedResults {env : Env} {names : List String} {types : List Ty} (same : names.length = types.length) :
    Balances counts calls (Eval.namedResults env names types) fun values _ =>
      AllHaveCounts counts values ∧ values.length = types.length := by
  induction names generalizing types with
  | nil =>
      cases types with
      | nil => exact .pure fun _ => ⟨fun value member => absurd member List.not_mem_nil, rfl⟩
      | cons => cases same
  | cons name names ih =>
      cases types with
      | nil => cases same
      | cons type types =>
          refine lookupLocal?.bind fun found has => (ih (Nat.succ.inj same)).bind fun values both =>
            .pure fun _ => ⟨List.forall_mem_cons.mpr ⟨?_, both.1⟩, congrArg (· + 1) both.2⟩
          cases found with
          | none => exact hasCounts_zero type
          | some value => exact has value rfl

theorem stepped {name : String} {up : Bool} {location : Location} {value : Value} :
    Balances counts calls (Eval.stepped name up location value) fun updated _ => HasCounts counts updated := by
  cases value with
  | int | float => exact .pure fun _ => hasCounts_of_scalar rfl
  | _ => exact .fail rfl

end Balances

end MiniGo.Running
