import MiniGo.Proofs.Running.Assignments
import MiniGo.Proofs.Running.Balance

/-!
# Tidy machines

Functions remember the scopes around them, and packages are scopes. On a tidy machine all of these scopes
are there, so a scope that is opened later means nothing to the values that were there before it. Code that
the grammar has keeps machines tidy, and it keeps the kinds of variables: in the scopes below a bound,
names stay bound, and what is written over a value has the kind of the value (`Retains`).
-/

namespace MiniGo.Running

open Syntax

variable {size bound : Nat} {before middle after : Store}

/-! ## Values and stores -/

/-- The scopes of an environment are there. -/
def Within (size : Nat) (env : Env) : Prop := ∀ id ∈ env, id < size

/-- A function among the values that code meets: the scopes around it are there, and the grammar has its body. -/
def Rooted (size : Nat) (value : Value) : Prop :=
  ∀ closure, value = .function closure → Within size closure.env ∧ Formed.function closure.literal

/-- A value that a store may hold: the scope of a package is there, too. -/
def Housed (size : Nat) (value : Value) : Prop :=
  Rooted size value ∧ ∀ ref, value = .package ref → ref.scope < size

abbrev AllHoused (size : Nat) (values : List Value) : Prop := ∀ value ∈ values, Housed size value

/-- Values with their expressions, as `AllHoused`. -/
abbrev PairsHoused (size : Nat) (received : List (Value × Option Expr)) : Prop :=
  ∀ pair ∈ received, Housed size pair.1

/-- The values that a statement returns. -/
def FlowHoused (size : Nat) (flow : Flow) : Prop := ∀ values, flow = .return values → AllHoused size values

/-- All values of a store lead to scopes that it has. -/
def TidyStore (store : Store) : Prop :=
  ∀ id, ∀ entry ∈ (store.scope id).bindings, Housed store.scopes.size entry.2.value

/-- The store of a machine is tidy, and so were all stores that its events met. -/
structure Tidy (machine : Machine) : Prop where
  store : TidyStore machine.store
  past : ∀ store event, machine.past store event → TidyStore store

theorem Within.mono {larger : Nat} {env : Env} (within : Within size env) (le : size ≤ larger) : Within larger env :=
  fun id member => Nat.lt_of_lt_of_le (within id member) le

theorem Rooted.mono {larger : Nat} {value : Value} (rooted : Rooted size value) (le : size ≤ larger) :
    Rooted larger value :=
  fun closure same => ⟨(rooted closure same).1.mono le, (rooted closure same).2⟩

theorem Housed.mono {larger : Nat} {value : Value} (housed : Housed size value) (le : size ≤ larger) :
    Housed larger value :=
  ⟨housed.1.mono le, fun ref same => Nat.lt_of_lt_of_le (housed.2 ref same) le⟩

theorem housed_of_scalar {value : Value} (scalar : isScalar value.kind = true) : Housed size value := by
  constructor
  · rintro closure rfl
    cases scalar
  · rintro ref rfl
    cases scalar

theorem housed_zero (type : Ty) : Housed size (.zero type) := by
  constructor
  · intro closure same
    cases type <;> cases same
  · intro ref same
    cases type <;> cases same

theorem housed_builtin (function : Builtin) : Housed size (.builtin function) := by
  constructor
  · intro closure same
    cases same
  · intro ref same
    cases same

theorem Housed.coerce {value : Value} (housed : Housed size value) (source : Option Expr) (type : Ty) :
    Housed size (value.coerce source type) := by
  unfold Value.coerce
  split
  · split
    · exact housed_of_scalar rfl
    · exact housed
  · exact housed

theorem housed_written {old value : Value} (housed : Housed size value) (source : Option Expr) :
    Housed size (written old value source) := by
  unfold written
  split
  · split
    · exact housed_of_scalar rfl
    · exact housed
  · exact housed

theorem Rooted.coerce {value : Value} (rooted : Rooted size value) (source : Option Expr) (type : Ty) :
    Rooted size (value.coerce source type) := by
  unfold Value.coerce
  split
  · split
    · exact (housed_of_scalar rfl).1
    · exact rooted
  · exact rooted

theorem Rooted.housed {value : Value} {type : Ty} (rooted : Rooted size value)
    (conforms : value.conformsTo type = true) : Housed size value := by
  refine ⟨rooted, ?_⟩
  rintro ref rfl
  cases type <;> cases conforms

theorem rooted_coerceArguments {params : List Parameter} {received : List (Value × Option Expr)}
    (housed : PairsHoused size received) : ∀ arg ∈ Eval.coerceArguments params received, Rooted size arg := by
  fun_induction Eval.coerceArguments params received with
  | case1 param params value source rest ih =>
      obtain ⟨here, others⟩ := List.forall_mem_cons.mp housed
      exact List.forall_mem_cons.mpr ⟨here.1.coerce source param.type, ih others⟩
  | case2 rest =>
      intro arg member
      obtain ⟨pair, inside, rfl⟩ := List.mem_map.mp member
      exact (housed pair inside).1
  | case3 => exact fun arg member => absurd member List.not_mem_nil

/-! ## Stores -/

/-- What a name is bound to before and after a run: the same, or another value of the kind that its variable
has. -/
def KeepsKind (before after : Option Binding) : Prop :=
  after = before ∨
    ∃ old new, before = some ⟨old, true⟩ ∧ after = some ⟨new, true⟩ ∧ new.kind = old.kind

theorem KeepsKind.refl (binding? : Option Binding) : KeepsKind binding? binding? := Or.inl rfl

theorem KeepsKind.trans {first second third : Option Binding} (one : KeepsKind first second)
    (two : KeepsKind second third) : KeepsKind first third := by
  rcases one with rfl | ⟨old, new, rfl, rfl, same⟩
  · exact two
  · rcases two with rfl | ⟨_, newer, ⟨⟩, rfl, again⟩
    · exact Or.inr ⟨old, new, rfl, rfl, same⟩
    · exact Or.inr ⟨old, newer, rfl, rfl, again.trans same⟩

/-- No scope is gone, and the scopes below a bound keep their names and the kinds of their variables. -/
structure Retains (bound : ScopeId) (before after : Store) : Prop where
  size : before.scopes.size ≤ after.scopes.size
  slots : ∀ id < bound, ∀ name, KeepsKind ((before.scope id).find? name) ((after.scope id).find? name)

theorem Retains.refl (bound : ScopeId) (store : Store) : Retains bound store store :=
  ⟨Nat.le_refl _, fun _ _ _ => .refl _⟩

theorem Retains.trans (first : Retains bound before middle) (second : Retains bound middle after) :
    Retains bound before after :=
  ⟨first.size.trans second.size, fun id below name => (first.slots id below name).trans (second.slots id below name)⟩

theorem Retains.lower {least : ScopeId} (retains : Retains bound before after) (le : least ≤ bound) :
    Retains least before after :=
  ⟨retains.size, fun id below => retains.slots id (Nat.lt_of_lt_of_le below le)⟩

/-- A name that means a binding below the bound means it still, and a variable holds a value of the same kind. -/
theorem Retains.find? (retains : Retains bound before after) {env : Env} (within : Within bound env)
    {name : String} {id : ScopeId} {value : Value} {mutable : Bool}
    (found : before.find? env name = some (id, ⟨value, mutable⟩)) :
    ∃ now : Value, after.find? env name = some (id, ⟨now, mutable⟩) ∧ now.kind = value.kind ∧
      (mutable = false → now = value) := by
  induction env with
  | nil => cases found
  | cons first outer ih =>
      obtain ⟨here, others⟩ := List.forall_mem_cons.mp within
      unfold Store.find? at found ⊢
      -- The slot of this scope is as it was, or a variable whose value has changed.
      rcases retains.slots first here name with same | ⟨old, new, was, is, kind⟩
      · rw [same]
        cases bound : (before.scope first).find? name with
        | none =>
            rw [bound] at found
            exact ih others found
        | some binding =>
            rw [bound] at found
            cases found
            exact ⟨value, rfl, rfl, fun _ => rfl⟩
      · rw [was] at found
        cases found
        rw [is]
        exact ⟨new, rfl, kind, fun constant => Bool.noConfusion constant⟩

theorem mem_of_findIn {name : String} {entries : List (String × Binding)} {binding : Binding}
    (found : Scope.findIn name entries = some binding) : ∃ entry ∈ entries, entry.2 = binding := by
  induction entries with
  | nil => cases found
  | cons entry rest ih =>
      unfold Scope.findIn at found
      split at found
      · cases found
        exact ⟨entry, List.mem_cons_self, rfl⟩
      · obtain ⟨other, member, same⟩ := ih found
        exact ⟨other, List.mem_cons_of_mem _ member, same⟩

theorem mem_insertIn {name : String} {binding : Binding} {entries : List (String × Binding)} {entry : String × Binding}
    (member : entry ∈ Scope.insertIn name binding entries) : entry = (name, binding) ∨ entry ∈ entries := by
  induction entries with
  | nil => exact Or.inl (List.mem_singleton.mp member)
  | cons first rest ih =>
      unfold Scope.insertIn at member
      split at member
      · exact (List.mem_cons.mp member).imp id (List.mem_cons_of_mem _)
      · rcases List.mem_cons.mp member with rfl | behind
        · exact Or.inr List.mem_cons_self
        · exact (ih behind).imp id (List.mem_cons_of_mem _)

theorem TidyStore.found {store : Store} (tidy : TidyStore store) {id : ScopeId} {name : String} {binding : Binding}
    (found : (store.scope id).find? name = some binding) : Housed store.scopes.size binding.value := by
  obtain ⟨entry, member, rfl⟩ := mem_of_findIn found
  exact tidy id entry member

theorem TidyStore.find? {store : Store} (tidy : TidyStore store) {env : Env} {name : String}
    {entry : ScopeId × Binding} (found : store.find? env name = some entry) :
    Housed store.scopes.size entry.2.value := by
  induction env with
  | nil => cases found
  | cons first outer ih =>
      unfold Store.find? at found
      split at found
      · rename_i here bound
        cases found
        exact tidy.found bound
      · exact ih found

theorem TidyStore.get? {store : Store} (tidy : TidyStore store) {env : Env} {name : String} {value : Value}
    (found : store.get? env name = some value) : Housed store.scopes.size value := by
  obtain ⟨entry, known, rfl⟩ := Option.map_eq_some_iff.mp found
  exact tidy.find? known

theorem TidyStore.getLocal? {store : Store} (tidy : TidyStore store) {env : Env} {name : String} {value : Value}
    (found : store.getLocal? env name = some value) : Housed store.scopes.size value := by
  unfold Store.getLocal? at found
  split at found
  · cases found
  · obtain ⟨binding, bound, rfl⟩ := Option.map_eq_some_iff.mp found
    exact tidy.found bound

theorem TidyStore.child {store : Store} (tidy : TidyStore store) (env : Env) : TidyStore (store.child env).2 := by
  intro id entry member
  rw [Store.scope_child] at member
  rw [Store.size_child]
  exact (tidy id entry member).mono (Nat.le_succ _)

theorem TidyStore.insert {store : Store} (tidy : TidyStore store) (id : ScopeId) (name : String) {binding : Binding}
    (housed : Housed store.scopes.size binding.value) : TidyStore (store.modify id (·.insert name binding)) := by
  intro other entry member
  rw [Store.size_modify]
  by_cases here : other = id
  · subst here
    by_cases old : other < store.scopes.size
    · rw [Store.scope_modify_self _ _ _ old] at member
      rcases mem_insertIn member with rfl | before
      · exact housed
      · exact tidy other entry before
    · rw [Store.modify_of_le _ (Nat.le_of_not_lt old)] at member
      exact tidy other entry member
  · rw [Store.scope_modify_of_ne _ _ here] at member
    exact tidy other entry member

theorem TidyStore.bind {store : Store} (tidy : TidyStore store) (env : Env) (name : String) {binding : Binding}
    (housed : Housed store.scopes.size binding.value) : TidyStore (store.bind env name binding) := by
  unfold Store.bind
  split
  · exact tidy
  · split
    · exact tidy
    · exact tidy.insert _ name housed

theorem Tidy.met {machine : Machine} (tidy : Tidy machine) (event : Event) : Tidy (machine.met event) where
  store := tidy.store
  past store other happened := by
    rcases happened with earlier | ⟨rfl, _⟩
    · exact tidy.past store other earlier
    · exact tidy.store

theorem retains_child (bound : ScopeId) (store : Store) (env : Env) : Retains bound store (store.child env).2 :=
  ⟨by rw [store.size_child]; exact Nat.le_succ _, fun id _ name => by rw [store.scope_child]; exact .refl _⟩

theorem retains_bind {env : Env} (above : Above bound env) (store : Store) (name : String) (binding : Binding) :
    Retains bound store (store.bind env name binding) := by
  refine ⟨(store.size_bind env name binding).ge, fun id below other => ?_⟩
  rw [scope_bind_of_lt above store name binding below]
  exact .refl _

theorem retains_write {store : Store} {id : ScopeId} {name : String} {old new : Value}
    (variable_ : (store.scope id).find? name = some ⟨old, true⟩) (same : new.kind = old.kind) :
    Retains bound store (store.write id name new) := by
  refine ⟨(store.size_modify id _).ge, fun other _ x => ?_⟩
  rw [Store.find?_write variable_]
  split
  · rename_i here
    rw [here.1, here.2, variable_]
    exact Or.inr ⟨old, new, rfl, rfl, same⟩
  · exact .refl _

/-! ## Computations -/

/-- How a computation ends on a tidy machine that it keeps tidy. -/
def Tidied (bound : ScopeId) (before : Store) (post : Nat → α → Prop) : EStateM.Result Halt Machine α → Prop
  | .ok value after => Tidy after ∧ Retains bound before after.store ∧ post after.store.scopes.size value
  | .error _ after => Tidy after ∧ Retains bound before after.store

/-- On tidy machines with so many scopes at least, a computation keeps the machine tidy and the kinds of variables
below a bound; `post` holds of its result and of the number of scopes behind it. -/
def Tidies (size : Nat) (bound : ScopeId) (action : Eval α) (post : Nat → α → Prop) : Prop :=
  ∀ machine, Tidy machine → size ≤ machine.store.scopes.size → bound ≤ machine.store.scopes.size →
    Tidied bound machine.store post (action machine)

/-- Nothing is said of a result. -/
abbrev Anything : Nat → α → Prop := fun _ _ => True

/-- A computation behind another, whose first part retains more. -/
theorem Tidied.seq {larger : ScopeId} {store : Store} {machine : Machine} {action : Eval α} {next : α → Eval β}
    {middle : Nat → α → Prop} {post : Nat → β → Prop} (le : bound ≤ larger)
    (first : Tidied larger store middle (action machine))
    (rest : ∀ value later, Tidy later → Retains larger store later.store → middle later.store.scopes.size value →
      Tidied bound later.store post (next value later)) :
    Tidied bound store post ((action >>= next) machine) := by
  change Tidied bound store post (EStateM.bind action next machine)
  unfold EStateM.bind
  cases outcome : action machine with
  | error halt later =>
      rw [outcome] at first
      exact ⟨first.1, first.2.lower le⟩
  | ok value later =>
      rw [outcome] at first
      obtain ⟨tidyLater, retains, holds⟩ := first
      have behind := rest value later tidyLater retains holds
      dsimp only
      cases result : next value later with
      | error halt last =>
          rw [result] at behind
          exact ⟨behind.1, (retains.lower le).trans behind.2⟩
      | ok value last =>
          rw [result] at behind
          exact ⟨behind.1, (retains.lower le).trans behind.2.1, behind.2.2⟩

/-- A value is written over a value of its kind. -/
theorem tidied_assign {machine : Machine} {env : Env} {name : String} {location : Location} {value : Value} (tidy : Tidy machine)
    (housed : Housed machine.store.scopes.size value)
    (same : ∀ id old, machine.store.find? env name = some (id, ⟨old, true⟩) → value.kind = old.kind) :
    Tidied bound machine.store Anything (Eval.assign env name value location machine) := by
  unfold Eval.assign
  cases target : machine.store.target env name location with
  | error error => exact ⟨tidy.met _, .refl _ _⟩
  | ok id =>
      unfold Store.target at target
      split at target
      · cases target
      · rename_i here binding found
        obtain ⟨old, mutable⟩ := binding
        cases mutable with
        | false => cases target
        | true =>
            cases target
            exact ⟨⟨tidy.store.insert _ _ housed, (tidy.met _).past⟩,
              retains_write (Store.found_in_scope found) (same _ old found), trivial⟩

namespace Tidies

variable {env : Env} {name : String} {location : Location} {action : Eval α} {next : α → Eval β}
  {middle : Nat → α → Prop} {post : Nat → β → Prop}

theorem pure {value : β} (holds : ∀ larger, size ≤ larger → post larger value) :
    Tidies size bound (Pure.pure value) post :=
  fun _ tidy le _ => ⟨tidy, .refl _ _, holds _ le⟩

theorem fail {error : RuntimeError} : Tidies size bound (Eval.fail error) post := fun _ tidy _ _ => ⟨tidy, .refl _ _⟩

theorem exhausted : Tidies size bound Eval.exhausted post := fun _ tidy _ _ => ⟨tidy, .refl _ _⟩

theorem bind (first : Tidies size bound action middle)
    (rest : ∀ larger value, size ≤ larger → middle larger value → Tidies larger bound (next value) post) :
    Tidies size bound (action >>= next) post := by
  intro machine tidy le old
  refine .seq (Nat.le_refl bound) (first machine tidy le old) fun value later tidyLater retains holds => ?_
  exact rest _ value (le.trans retains.size) holds later tidyLater (Nat.le_refl _) (old.trans retains.size)

theorem choice {condition : Prop} [Decidable condition] {yes no : Eval β} (one : Tidies size bound yes post)
    (two : Tidies size bound no post) : Tidies size bound (if condition then yes else no) post := by
  split
  · exact one
  · exact two

theorem openScope (within : Within size env) : Tidies size bound (Eval.openScope env)
    (fun larger inner => Within larger inner ∧ Above bound inner ∧ inner ≠ []) := by
  intro machine tidy le old
  have grown : (machine.store.child env).2.scopes.size = machine.store.scopes.size + 1 := machine.store.size_child env
  refine ⟨⟨tidy.store.child env, (tidy.met (.opened env)).past⟩, retains_child bound _ env, ?_, ?_, nofun⟩
  · change Within (machine.store.child env).2.scopes.size (machine.store.scopes.size :: env)
    rw [grown]
    exact List.forall_mem_cons.mpr ⟨Nat.lt_succ_self _, within.mono (le.trans (Nat.le_succ _))⟩
  · rintro id ⟨⟩
    exact old

theorem inScope {next : Env → Eval β} (within : Within size env)
    (rest : ∀ larger inner, size ≤ larger → Within larger inner → Above bound inner →
      Tidies larger bound (next inner) post) :
    Tidies size bound (Eval.openScope env >>= next) post :=
  (openScope within).bind fun larger inner more ⟨inside, above, _⟩ => rest larger inner more inside above

theorem inFrame {frame : Frame} (body : Tidies size bound action middle) :
    Tidies size bound (Eval.inFrame frame action) middle := by
  intro machine tidy le old
  have ran := body { machine with calls := machine.calls.push frame } ⟨tidy.store, tidy.past⟩ le old
  unfold Eval.inFrame
  cases outcome : action { machine with calls := machine.calls.push frame } with
  | error halt later =>
      rw [outcome] at ran
      exact ⟨⟨ran.1.store, ran.1.past⟩, ran.2⟩
  | ok value later =>
      rw [outcome] at ran
      exact ⟨⟨ran.1.store, ran.1.past⟩, ran.2.1, ran.2.2⟩

theorem ofExcept {result : Except RuntimeError β} (holds : ∀ value, result = .ok value → ∀ larger, post larger value) :
    Tidies size bound (Eval.ofExcept result) post := by
  cases result with
  | error error => exact fail
  | ok value => exact pure fun larger _ => holds value rfl larger

/-! ### Steps of the machine -/

theorem meet {event : Event} : Tidies size bound (Eval.meet event) Anything :=
  fun _ tidy _ _ => ⟨tidy.met event, .refl _ _, trivial⟩

theorem lookup? : Tidies size bound (Eval.lookup? env name location)
    (fun larger found => ∀ value, found = some value → Housed larger value) :=
  fun _ tidy _ _ => ⟨tidy.met _, .refl _ _, fun _ found => tidy.store.get? found⟩

theorem lookupLocal? : Tidies size bound (Eval.lookupLocal? env name)
    (fun larger found => ∀ value, found = some value → Housed larger value) :=
  fun _ tidy _ _ => ⟨tidy, .refl _ _, fun _ found => tidy.store.getLocal? found⟩

theorem hasLocal : Tidies size bound (Eval.hasLocal env name) Anything := fun _ tidy _ _ => ⟨tidy, .refl _ _, trivial⟩

theorem depth : Tidies size bound Eval.depth Anything := fun _ tidy _ _ => ⟨tidy, .refl _ _, trivial⟩

theorem frame? : Tidies size bound Eval.frame? Anything := fun _ tidy _ _ => ⟨tidy, .refl _ _, trivial⟩

theorem makeClosure {literal : FunctionLiteral} (within : Within size env) (formed : Formed.function literal) :
    Tidies size bound (Eval.makeClosure name literal env) Housed := by
  intro machine tidy le _
  refine ⟨⟨tidy.store, tidy.past⟩, .refl _ _, ?_, nofun⟩
  rintro closure ⟨⟩
  exact ⟨within.mono le, formed⟩

theorem callBuiltin {function : Builtin} {args : List Value} :
    Tidies size bound (Eval.callBuiltin function args location) AllHoused := by
  intro machine tidy _ _
  unfold Eval.callBuiltin
  cases called : function.call args location with
  | error error => exact ⟨tidy, .refl _ _⟩
  | ok outcome =>
      exact ⟨⟨tidy.store, tidy.past⟩, .refl _ _, fun value member => housed_of_scalar (builtin_scalar called value member)⟩

theorem bindTyped {type? : Option Ty} {value : Value} {mutable : Bool} (above : Above bound env)
    (housed : Housed size value) : Tidies size bound (Eval.bindTyped env name type? value mutable) Anything :=
  fun _ tidy le _ => ⟨⟨tidy.store.bind env name (housed.mono le), (tidy.met _).past⟩, retains_bind above _ _ _, trivial⟩

/-! ### Names and values -/

theorem qualified {package : String} : Tidies size bound (Eval.qualified env package name location) Housed := by
  refine meet.bind fun _ _ _ _ => lookup?.bind fun _ found _ _ => ?_
  split
  · refine choice (lookupLocal?.bind fun _ value? _ housed => ?_) fail
    cases value? with
    | none => exact fail
    | some value => exact pure fun _ more => (housed value rfl).mono more
  · exact fail
  · exact fail

theorem literalName : Tidies size bound Eval.literalName Anything := by
  refine frame?.bind fun _ frame _ _ => ?_
  cases frame <;> exact pure fun _ _ => trivial

theorem storeValue {value : Value} {source : Option Expr} (housed : Housed size value) :
    Tidies size bound (Eval.storeValue env name value source location) Anything := by
  intro machine tidy le old
  rw [storeValue_eq]
  change Tidied bound machine.store Anything (EStateM.bind (Eval.lookup env name location) _ machine)
  unfold EStateM.bind Eval.lookup
  cases found : machine.store.get? env name with
  | none => exact ⟨tidy.met _, .refl _ _⟩
  | some current =>
      dsimp only
      split
      · rename_i same
        refine tidied_assign (tidy.met _) ((housed_written housed source).mono le) fun id value known => ?_
        have known : machine.store.find? env name = some (id, ⟨value, true⟩) := known
        rw [Store.get?, known] at found
        cases found
        exact same.symm
      · exact ⟨tidy.met _, .refl _ _⟩

theorem storeValues {targets : List String} {received : List (Value × Option Expr)} (housed : PairsHoused size received) :
    Tidies size bound (Eval.storeValues env location targets received) Anything := by
  induction targets generalizing size received with
  | nil => exact pure fun _ _ => trivial
  | cons target targets ih =>
      cases received with
      | nil => exact pure fun _ _ => trivial
      | cons pair received =>
          obtain ⟨here, others⟩ := List.forall_mem_cons.mp housed
          rw [Eval.storeValues]
          exact choice (ih others)
            ((storeValue here).bind fun _ _ more _ => ih fun pair member => (others pair member).mono more)

theorem defineValues {names : List String} {received : List (Value × Option Expr)} (above : Above bound env)
    (housed : PairsHoused size received) :
    Tidies size bound (Eval.defineValues env location names received) Anything := by
  induction names generalizing size received with
  | nil => exact pure fun _ _ => trivial
  | cons name names ih =>
      cases received with
      | nil => exact pure fun _ _ => trivial
      | cons pair received =>
          obtain ⟨here, others⟩ := List.forall_mem_cons.mp housed
          have later : ∀ larger, size ≤ larger → PairsHoused larger received :=
            fun _ more pair member => (others pair member).mono more
          rw [Eval.defineValues]
          refine choice (ih others) (hasLocal.bind fun _ _ more _ => choice ?_ ?_)
          · exact (storeValue (here.mono more)).bind fun _ _ again _ => ih (later _ (more.trans again))
          · exact (bindTyped above (here.mono more)).bind fun _ _ again _ => ih (later _ (more.trans again))

theorem bindValues {mutable : Bool} {type? : Option Ty} {names : List String} {values : List Value}
    (above : Above bound env) (housed : AllHoused size values) :
    Tidies size bound (Eval.bindValues env mutable type? names values) Anything := by
  induction names generalizing size values with
  | nil => exact pure fun _ _ => trivial
  | cons name names ih =>
      cases values with
      | nil => exact pure fun _ _ => trivial
      | cons value values =>
          obtain ⟨here, others⟩ := List.forall_mem_cons.mp housed
          exact (bindTyped above here).bind fun _ _ more _ => ih fun value member => (others value member).mono more

theorem declaredValue {type? : Option Ty} {value : Value} {source : Option Expr} (housed : Housed size value) :
    Tidies size bound (Eval.declaredValue type? location value source) Housed := by
  cases type? with
  | none => exact pure fun _ more => housed.mono more
  | some type => exact choice (pure fun _ more => (housed.coerce source type).mono more) fail

theorem declaredValues {type? : Option Ty} {received : List (Value × Option Expr)} (housed : PairsHoused size received) :
    Tidies size bound (Eval.declaredValues type? location received) AllHoused := by
  induction received generalizing size with
  | nil => exact pure fun _ _ value member => absurd member List.not_mem_nil
  | cons pair rest ih =>
      obtain ⟨here, others⟩ := List.forall_mem_cons.mp housed
      refine (declaredValue here).bind fun _ first more housedFirst =>
        (ih fun pair member => (others pair member).mono more).bind fun _ rest again housedRest => ?_
      exact pure fun _ last => List.forall_mem_cons.mpr
        ⟨housedFirst.mono (again.trans last), fun value member => (housedRest value member).mono last⟩

theorem returnedValues {types : List Ty} {received : List (Value × Option Expr)} (housed : PairsHoused size received) :
    Tidies size bound (Eval.returnedValues location types received) AllHoused := by
  have none : ∀ larger, AllHoused larger [] := fun _ value member => absurd member List.not_mem_nil
  induction types generalizing size received with
  | nil => exact pure fun larger _ => none larger
  | cons type types ih =>
      cases received with
      | nil => exact pure fun larger _ => none larger
      | cons pair received =>
          obtain ⟨here, others⟩ := List.forall_mem_cons.mp housed
          rw [Eval.returnedValues]
          refine choice ((ih others).bind fun _ rest more housedRest => ?_) fail
          exact pure fun _ last => List.forall_mem_cons.mpr
            ⟨(here.coerce pair.2 type).mono (more.trans last), fun value member => (housedRest value member).mono last⟩

theorem bindParameters {function : String} {params : List Parameter} {args : List Value} (above : Above bound env)
    (rooted : ∀ arg ∈ args, Rooted size arg) :
    Tidies size bound (Eval.bindParameters env function location params args) Anything := by
  induction params generalizing size args with
  | nil => exact pure fun _ _ => trivial
  | cons param params ih =>
      cases args with
      | nil => exact pure fun _ _ => trivial
      | cons arg args =>
          obtain ⟨here, others⟩ := List.forall_mem_cons.mp rooted
          have later : ∀ larger, size ≤ larger → ∀ arg ∈ args, Rooted larger arg :=
            fun _ more arg member => (others arg member).mono more
          rw [Eval.bindParameters]
          by_cases conforms : arg.conformsTo param.type
          · rw [if_pos conforms]
            exact (bindTyped above (here.housed conforms)).bind fun _ _ more _ => ih (later _ more)
          · rw [if_neg conforms]
            exact (@fail Unit _ _ Anything _).bind fun _ _ more _ => ih (later _ more)

theorem bindResults {names : List String} {types : List Ty} (above : Above bound env) :
    Tidies size bound (Eval.bindResults env names types) Anything := by
  induction names generalizing size types with
  | nil => exact pure fun _ _ => trivial
  | cons name names ih =>
      cases types with
      | nil => exact pure fun _ _ => trivial
      | cons type types => exact (bindTyped above (housed_zero type)).bind fun _ _ _ _ => ih

theorem namedResults {names : List String} {types : List Ty} :
    Tidies size bound (Eval.namedResults env names types) AllHoused := by
  have none : ∀ larger, AllHoused larger [] := fun _ value member => absurd member List.not_mem_nil
  induction names generalizing size types with
  | nil => exact pure fun larger _ => none larger
  | cons name names ih =>
      cases types with
      | nil => exact pure fun larger _ => none larger
      | cons type types =>
          refine lookupLocal?.bind fun _ found _ housed => ih.bind fun _ rest more housedRest => ?_
          refine pure fun _ last => List.forall_mem_cons.mpr ⟨?_, fun value member => (housedRest value member).mono last⟩
          cases found with
          | none => exact housed_zero type
          | some value => exact (housed value rfl).mono (more.trans last)

theorem resultsOf {signature : Signature} {flow : Flow} (housed : FlowHoused size flow) :
    Tidies size bound (Eval.resultsOf env signature flow) AllHoused := by
  have none : ∀ larger, AllHoused larger [] := fun _ value member => absurd member List.not_mem_nil
  unfold Eval.resultsOf
  split
  · exact choice (pure fun larger _ => none larger) namedResults
  · exact pure fun _ more value member => (housed _ rfl value member).mono more
  · exact pure fun larger _ => none larger

end Tidies

end MiniGo.Running
