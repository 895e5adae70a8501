import MiniGo.Proofs.Running.Assignments

/-!
# Machines whose scopes have other numbers

The numbers of scopes mean nothing to code. Two machines are twins under a pairing of their scopes if they are
the same up to the numbers; a scope without names may have no counterpart, and is then passed over wherever it
stands in an environment. The past of a machine does not count, because no computation looks at it.
-/

namespace MiniGo.Running

/-- The counterparts of scopes; a scope may have none. -/
abbrev Pairing := ScopeId → Option ScopeId

variable {pairs : Pairing} {env : Env} {name : String} {location : Location}

/-! ## Values -/

/-- A value as it is with other numbers of scopes. -/
inductive Twin (pairs : Pairing) : Value → Value → Prop
  | plain {value : Value} (noFunction : ∀ closure, value ≠ .function closure)
      (noPackage : ∀ ref, value ≠ .package ref) : Twin pairs value value
  | function (identity : Nat) (name : String) (literal : FunctionLiteral) (env : Env) :
      Twin pairs (.function ⟨identity, name, literal, env⟩) (.function ⟨identity, name, literal, env.filterMap pairs⟩)
  | package {name path : String} {id other : ScopeId} (paired : pairs id = some other) :
      Twin pairs (.package ⟨name, path, id⟩) (.package ⟨name, path, other⟩)

abbrev Twins (pairs : Pairing) : List Value → List Value → Prop := List.Forall₂ (Twin pairs)

/-- Values with their expressions, as `Twins`. -/
abbrev PairTwins (pairs : Pairing) : List (Value × Option Expr) → List (Value × Option Expr) → Prop :=
  List.Forall₂ fun one other => Twin pairs one.1 other.1 ∧ one.2 = other.2

def bare : Value → Value
  | .function closure => .function { closure with env := [] }
  | .package ref => .package { ref with scope := 0 }
  | other => other

theorem Twin.bare {value other : Value} (twin : Twin pairs value other) : bare other = bare value := by
  cases twin <;> rfl

theorem kind_bare (value : Value) : (bare value).kind = value.kind := by cases value <;> rfl

theorem equals_bare (left right : Value) (location : Location) :
    (bare left).equals (bare right) location = left.equals right location := by
  cases left <;> cases right <;> rfl

theorem binary_bare (op : BinaryOp) (left right : Value) (location : Location) :
    Value.binary op (bare left) (bare right) location = Value.binary op left right location := by
  unfold Value.binary
  split
  · rw [equals_bare]
  · rw [equals_bare]
  · cases left <;> cases right <;> rfl

theorem unary_bare (op : UnaryOp) (operand : Value) (location : Location) :
    Value.unary op (bare operand) location = Value.unary op operand location := by
  cases op <;> cases operand <;> rfl

theorem render_bare (value : Value) : (bare value).render = value.render := by
  cases value with
  | function closure => simp only [bare, Value.render]
  | package ref => simp only [bare, Value.render]
  | _ => rfl

theorem renderAll_bare (args : List Value) : Value.renderAll (args.map bare) = Value.renderAll args := by
  induction args with
  | nil => rfl
  | cons first rest ih => rw [List.map_cons, Value.renderAll, render_bare, ih, Value.renderAll]

theorem joined_bare (args : List Value) : Builtin.joined (args.map bare) = Builtin.joined args := by
  have isText : ∀ value, Builtin.isText (bare value) = Builtin.isText value := fun value => by cases value <;> rfl
  fun_induction Builtin.joined args with
  | case1 => rfl
  | case2 found => exact render_bare found
  | case3 first second rest gap ih =>
      rw [List.map_cons, List.map_cons, Builtin.joined, ← List.map_cons, ih, isText, isText, render_bare]

theorem call_bare (function : Builtin) (args : List Value) (location : Location) :
    function.call (args.map bare) location = function.call args location := by
  cases function with
  | len =>
      match args with
      | [] => rfl
      | [found] => cases found <;> rfl
      | first :: second :: rest =>
          have count : ((first :: second :: rest).map bare).length = (first :: second :: rest).length := List.length_map _
          have refused := congrArg (fun count => (Except.error (.argumentCount "len" 1 count location)
            : Except RuntimeError (List Value × String))) count
          cases first <;> exact refused
  | println | sprintln =>
      unfold Builtin.call Builtin.spaced
      rw [renderAll_bare]
  | print | sprint =>
      unfold Builtin.call
      rw [joined_bare]

namespace Twin

variable {value other : Value}

theorem kind (twin : Twin pairs value other) : other.kind = value.kind := by
  rw [← kind_bare, twin.bare, kind_bare]

theorem conformsTo (twin : Twin pairs value other) (type : Ty) : other.conformsTo type = value.conformsTo type := by
  rw [Value.conformsTo, twin.kind, Value.conformsTo]

theorem int (n : Int64) : Twin pairs (.int n) (.int n) := .plain nofun nofun

theorem float (x : Float) : Twin pairs (.float x) (.float x) := .plain nofun nofun

theorem string (text : String) : Twin pairs (.string text) (.string text) := .plain nofun nofun

theorem bool (b : Bool) : Twin pairs (.bool b) (.bool b) := .plain nofun nofun

theorem scalar (scalar : isScalar value.kind = true) : Twin pairs value value := by
  cases value with
  | function | package => cases scalar
  | _ => exact .plain nofun nofun

theorem zero (type : Ty) : Twin pairs (.zero type) (.zero type) := by
  cases type <;> exact .plain nofun nofun

theorem binary {left right left' right' : Value} (one : Twin pairs left left') (two : Twin pairs right right')
    (op : BinaryOp) (location : Location) :
    Value.binary op left' right' location = Value.binary op left right location := by
  rw [← binary_bare, one.bare, two.bare, binary_bare]

theorem equals {left right left' right' : Value} (one : Twin pairs left left') (two : Twin pairs right right')
    (location : Location) : left'.equals right' location = left.equals right location := by
  rw [← equals_bare, one.bare, two.bare, equals_bare]

theorem unary (twin : Twin pairs value other) (op : UnaryOp) (location : Location) :
    Value.unary op other location = Value.unary op value location := by
  rw [← unary_bare, twin.bare, unary_bare]

theorem asBool (twin : Twin pairs value other) (location : Location) : other.asBool location = value.asBool location := by
  cases twin <;> rfl

theorem coerce (twin : Twin pairs value other) (source : Option Expr) (type : Ty) :
    Twin pairs (value.coerce source type) (other.coerce source type) := by
  cases twin with
  | function identity name literal env => exact .function identity name literal env
  | package paired => exact .package paired
  | plain noFunction noPackage =>
      unfold Value.coerce
      split
      · split
        · exact float _
        · exact int _
      · exact .plain noFunction noPackage

theorem written {old old' : Value} (one : Twin pairs old old') (twin : Twin pairs value other) (source : Option Expr) :
    Twin pairs (Running.written old value source) (Running.written old' other source) := by
  rw [written_eq, written_eq, one.kind]
  split
  · exact twin.coerce source .float
  · exact twin

theorem unify {left right left' right' : Value} (one : Twin pairs left left') (two : Twin pairs right right')
    (leftExpr rightExpr : Expr) :
    Twin pairs (Value.unify left leftExpr right rightExpr).1 (Value.unify left' leftExpr right' rightExpr).1 ∧
    Twin pairs (Value.unify left leftExpr right rightExpr).2 (Value.unify left' leftExpr right' rightExpr).2 := by
  rw [unify_eq, unify_eq]
  exact ⟨two.written one _, one.written two _⟩

end Twin

theorem Twins.bare {args others : List Value} (twins : Twins pairs args others) : others.map bare = args.map bare := by
  induction twins with
  | nil => rfl
  | cons first _ ih => rw [List.map_cons, List.map_cons, first.bare, ih]

theorem twins_of_scalars {values : List Value} (scalar : ∀ value ∈ values, isScalar value.kind = true) :
    Twins pairs values values := by
  induction values with
  | nil => exact .nil
  | cons first rest ih =>
      obtain ⟨here, others⟩ := List.forall_mem_cons.mp scalar
      exact .cons (.scalar here) (ih others)

theorem PairTwins.values {received others : List (Value × Option Expr)} (twins : PairTwins pairs received others) :
    Twins pairs (received.map (·.1)) (others.map (·.1)) := by
  induction twins with
  | nil => exact .nil
  | cons first _ ih => exact .cons first.1 ih

theorem PairTwins.coerceArguments {received others : List (Value × Option Expr)} (twins : PairTwins pairs received others)
    (params : List Parameter) :
    Twins pairs (Eval.coerceArguments params received) (Eval.coerceArguments params others) := by
  induction params generalizing received others with
  | nil =>
      unfold Eval.coerceArguments
      exact twins.values
  | cons param params ih =>
      cases twins with
      | nil => exact .nil
      | cons first rest =>
          obtain ⟨twin, same⟩ := first
          unfold Eval.coerceArguments
          rw [← same]
          exact .cons (twin.coerce _ _) (ih rest)

/-- A statement finished in the same way. -/
inductive FlowTwin (pairs : Pairing) : Flow → Flow → Prop
  | normal : FlowTwin pairs .normal .normal
  | break : FlowTwin pairs .break .break
  | continue : FlowTwin pairs .continue .continue
  | return {values others : List Value} : Twins pairs values others → FlowTwin pairs (.return values) (.return others)

/-! ## Stores -/

/-- A binding as it is with other numbers of scopes. -/
structure BindingTwin (pairs : Pairing) (binding other : Binding) : Prop where
  value : Twin pairs binding.value other.value
  mutable : other.mutable = binding.mutable

/-- The names of a scope as they are with other numbers of scopes, in the same order. -/
abbrev EntryTwins (pairs : Pairing) : List (String × Binding) → List (String × Binding) → Prop :=
  List.Forall₂ fun one other => other.1 = one.1 ∧ BindingTwin pairs one.2 other.2

theorem EntryTwins.findIn {entries others : List (String × Binding)} (twins : EntryTwins pairs entries others)
    (name : String) :
    Option.Rel (BindingTwin pairs) (Scope.findIn name entries) (Scope.findIn name others) := by
  induction twins with
  | nil => exact .none
  | @cons one other _ _ first _ ih =>
      obtain ⟨x, binding⟩ := one
      obtain ⟨_, other⟩ := other
      obtain ⟨rfl, twin⟩ := first
      unfold Scope.findIn
      dsimp only
      split
      · exact .some twin
      · exact ih

theorem EntryTwins.insertIn {entries others : List (String × Binding)} (twins : EntryTwins pairs entries others)
    {binding other : Binding} (twin : BindingTwin pairs binding other) :
    EntryTwins pairs (Scope.insertIn name binding entries) (Scope.insertIn name other others) := by
  induction twins with
  | nil => exact .cons ⟨rfl, twin⟩ .nil
  | @cons one other _ _ first rest ih =>
      obtain ⟨x, old⟩ := one
      obtain ⟨_, old'⟩ := other
      obtain ⟨rfl, twinOld⟩ := first
      unfold Scope.insertIn
      dsimp only
      split
      · exact .cons ⟨rfl, twin⟩ rest
      · exact .cons ⟨rfl, twinOld⟩ ih

/-- Stores that are the same up to the numbers of scopes. Scopes that will be opened have counterparts one by
one, and a scope without a counterpart has no names. -/
structure StoreTwin (pairs : Pairing) (store other : Store) : Prop where
  apart : ∀ {one two id}, pairs one = some id → pairs two = some id → one = two
  fresh : ∀ more, pairs (store.scopes.size + more) = some (other.scopes.size + more)
  entries : ∀ {id id'}, pairs id = some id' → EntryTwins pairs (store.scope id).bindings (other.scope id').bindings
  blank : ∀ {id}, pairs id = none → (store.scope id).bindings = []

/-- The innermost scope of an environment, if it has one, has a counterpart. -/
def Opened (pairs : Pairing) (env : Env) : Prop := ∀ id ∈ env.head?, (pairs id).isSome

namespace StoreTwin

variable {store other : Store} (twin : StoreTwin pairs store other)
include twin

theorem lt_size {id id' : ScopeId} (paired : pairs id = some id') :
    id < store.scopes.size ↔ id' < other.scopes.size := by
  rw [← not_iff_not, Nat.not_lt, Nat.not_lt]
  constructor
  · intro beyond
    obtain ⟨more, rfl⟩ := Nat.exists_eq_add_of_le beyond
    rw [twin.fresh more] at paired
    cases paired
    exact Nat.le_add_right _ _
  · intro beyond
    obtain ⟨more, rfl⟩ := Nat.exists_eq_add_of_le beyond
    obtain rfl := twin.apart paired (twin.fresh more)
    exact Nat.le_add_right _ _

theorem find? (env : Env) (name : String) :
    Option.Rel (fun one other => pairs one.1 = some other.1 ∧ BindingTwin pairs one.2 other.2)
      (store.find? env name) (other.find? (env.filterMap pairs) name) := by
  induction env with
  | nil => exact .none
  | cons id outer ih =>
      cases paired : pairs id with
      | none =>
          rw [List.filterMap_cons_none paired, Store.find?, Scope.find?, twin.blank paired]
          exact ih
      | some id' =>
          rw [List.filterMap_cons_some paired, Store.find?, Store.find?, Scope.find?, Scope.find?]
          have here := (twin.entries paired).findIn name
          cases one : Scope.findIn name (store.scope id).bindings <;>
            cases two : Scope.findIn name (other.scope id').bindings <;> rw [one, two] at here <;> cases here
          · exact ih
          · rename_i twin
            exact .some ⟨paired, twin⟩

theorem get? (env : Env) (name : String) :
    Option.Rel (Twin pairs) (store.get? env name) (other.get? (env.filterMap pairs) name) := by
  have found := twin.find? env name
  unfold Store.get?
  cases one : store.find? env name <;> cases two : other.find? (env.filterMap pairs) name <;>
    rw [one, two] at found <;> cases found
  · exact .none
  · rename_i both
    exact .some both.2.value

theorem getLocal? (opened : Opened pairs env) (name : String) :
    Option.Rel (Twin pairs) (store.getLocal? env name) (other.getLocal? (env.filterMap pairs) name) := by
  cases env with
  | nil => exact .none
  | cons id outer =>
      obtain ⟨id', paired⟩ := Option.isSome_iff_exists.mp (opened id rfl)
      rw [List.filterMap_cons_some paired]
      have here := (twin.entries paired).findIn name
      unfold Store.getLocal? Scope.find?
      dsimp only
      cases one : Scope.findIn name (store.scope id).bindings <;>
        cases two : Scope.findIn name (other.scope id').bindings <;> rw [one, two] at here <;> cases here
      · exact .none
      · rename_i twin
        exact .some twin.value

theorem hasLocal (opened : Opened pairs env) (name : String) :
    other.hasLocal (env.filterMap pairs) name = store.hasLocal env name := by
  cases env with
  | nil => rfl
  | cons id outer =>
      obtain ⟨id', paired⟩ := Option.isSome_iff_exists.mp (opened id rfl)
      rw [List.filterMap_cons_some paired]
      have here := (twin.entries paired).findIn name
      unfold Store.hasLocal Scope.find?
      dsimp only
      cases one : Scope.findIn name (store.scope id).bindings <;>
        cases two : Scope.findIn name (other.scope id').bindings <;> rw [one, two] at here <;> cases here
      rfl

theorem child (env env' : Env) : StoreTwin pairs (store.child env).2 (other.child env').2 where
  apart := twin.apart
  fresh more := by
    rw [Store.size_child, Store.size_child, Nat.add_assoc, Nat.add_assoc]
    exact twin.fresh (1 + more)
  entries paired := by
    rw [Store.scope_child, Store.scope_child]
    exact twin.entries paired
  blank paired := by
    rw [Store.scope_child]
    exact twin.blank paired

theorem env_child (env : Env) : (other.child (env.filterMap pairs)).1 = (store.child env).1.filterMap pairs := by
  have paired : pairs store.scopes.size = some other.scopes.size := twin.fresh 0
  unfold Store.child
  rw [List.filterMap_cons_some paired]

theorem insert {id id' : ScopeId} (paired : pairs id = some id') {binding binding' : Binding}
    (both : BindingTwin pairs binding binding') :
    StoreTwin pairs (store.modify id (·.insert name binding)) (other.modify id' (·.insert name binding')) := by
  refine ⟨twin.apart, fun more => ?_, fun {one one'} also => ?_, fun {one} none => ?_⟩
  · rw [Store.size_modify, Store.size_modify]
    exact twin.fresh more
  · by_cases here : one = id
    · subst here
      obtain rfl : id' = one' := Option.some.inj (paired.symm.trans also)
      by_cases old : one < store.scopes.size
      · rw [Store.scope_modify_self _ _ _ old, Store.scope_modify_self _ _ _ ((twin.lt_size also).mp old)]
        exact (twin.entries also).insertIn both
      · rw [Store.modify_of_le _ (Nat.le_of_not_lt old),
          Store.modify_of_le _ (Nat.le_of_not_lt fun inside => old ((twin.lt_size also).mpr inside))]
        exact twin.entries also
    · -- Scopes that are apart have twins that are apart, so neither of these got the name.
      have there : one' ≠ id' := fun same => here (twin.apart also (same ▸ paired))
      rw [Store.scope_modify_of_ne _ _ here, Store.scope_modify_of_ne _ _ there]
      exact twin.entries also
  · have different : one ≠ id := by
      rintro rfl
      rw [none] at paired
      cases paired
    rw [Store.scope_modify_of_ne _ _ different]
    exact twin.blank none

theorem bind (opened : Opened pairs env) {binding binding' : Binding} (both : BindingTwin pairs binding binding') :
    StoreTwin pairs (store.bind env name binding) (other.bind (env.filterMap pairs) name binding') := by
  unfold Store.bind
  split
  · exact twin
  · cases env with
    | nil => exact twin
    | cons id outer =>
        obtain ⟨id', paired⟩ := Option.isSome_iff_exists.mp (opened id rfl)
        rw [List.filterMap_cons_some paired]
        exact twin.insert paired both

theorem target (env : Env) (name : String) (location : Location) :
    (∃ error, store.target env name location = .error error ∧
      other.target (env.filterMap pairs) name location = .error error) ∨
    ∃ id id', pairs id = some id' ∧ store.target env name location = .ok id ∧
      other.target (env.filterMap pairs) name location = .ok id' := by
  have found := twin.find? env name
  unfold Store.target
  cases one : store.find? env name <;> cases two : other.find? (env.filterMap pairs) name <;>
    rw [one, two] at found <;> cases found
  · exact Or.inl ⟨_, rfl, rfl⟩
  · rename_i entry entry' both
    obtain ⟨paired, twin⟩ := both
    dsimp only
    rw [twin.mutable]
    split
    · exact Or.inr ⟨_, _, paired, rfl, rfl⟩
    · exact Or.inl ⟨_, rfl, rfl⟩

end StoreTwin

/-! ## Machines -/

/-- Machines that are the same up to the numbers of scopes, and up to their pasts. -/
structure MachineTwin (pairs : Pairing) (machine other : Machine) : Prop where
  store : StoreTwin pairs machine.store other.store
  calls : other.calls = machine.calls
  output : other.output = machine.output
  closures : other.closures = machine.closures

theorem MachineTwin.stored {machine other : Machine} {store store' : Store} {past past' : Store → Event → Prop}
    (twins : MachineTwin pairs machine other) (stores : StoreTwin pairs store store') :
    MachineTwin pairs { machine with store, past } { other with store := store', past := past' } :=
  ⟨stores, twins.calls, twins.output, twins.closures⟩

/-- Two computations ended in the same way. -/
def Echoed (pairs : Pairing) (same : α → β → Prop) :
    EStateM.Result Halt Machine α → EStateM.Result Halt Machine β → Prop
  | .ok value after, .ok other later => same value other ∧ MachineTwin pairs after later
  | .error halt after, .error stop later => stop = halt ∧ MachineTwin pairs after later
  | _, _ => False

/-- On twins, one computation does what the other does. -/
def Echoes (pairs : Pairing) (same : α → β → Prop) (action : Eval α) (other : Eval β) : Prop :=
  ∀ machine twin, MachineTwin pairs machine twin → Echoed pairs same (action machine) (other twin)

namespace Echoes

variable {same : α → β → Prop} {last : γ → δ → Prop}

theorem pure {value : α} {other : β} (holds : same value other) : Echoes pairs same (Pure.pure value) (Pure.pure other) :=
  fun _ _ twin => ⟨holds, twin⟩

theorem fail {error : RuntimeError} : Echoes pairs same (Eval.fail error) (Eval.fail error) := fun _ _ twin => ⟨rfl, twin⟩

theorem exhausted : Echoes pairs same Eval.exhausted Eval.exhausted := fun _ _ twin => ⟨rfl, twin⟩

theorem bind {action : Eval α} {other : Eval β} {next : α → Eval γ} {behind : β → Eval δ}
    (first : Echoes pairs same action other)
    (rest : ∀ value found, same value found → Echoes pairs last (next value) (behind found)) :
    Echoes pairs last (action >>= next) (other >>= behind) := by
  intro machine twin twins
  have ended := first machine twin twins
  change Echoed pairs last (EStateM.bind action next machine) (EStateM.bind other behind twin)
  unfold EStateM.bind
  cases ran : action machine <;> cases echoed : other twin <;> rw [ran, echoed] at ended
  · exact rest _ _ ended.1 _ _ ended.2
  · exact ended.elim
  · exact ended.elim
  · exact ended

theorem choice {condition : Prop} [Decidable condition] {yes no : Eval α} {yes' no' : Eval β}
    (one : Echoes pairs same yes yes') (two : Echoes pairs same no no') :
    Echoes pairs same (if condition then yes else no) (if condition then yes' else no') := by
  split
  · exact one
  · exact two

theorem ofExcept {same : α → α → Prop} {result : Except RuntimeError α}
    (holds : ∀ value, result = .ok value → same value value) :
    Echoes pairs same (Eval.ofExcept result) (Eval.ofExcept result) := by
  cases result with
  | error error => exact fail
  | ok value => exact pure (holds value rfl)

theorem computed {op : BinaryOp} {left right : Value} :
    Echoes pairs (Twin pairs) (Eval.ofExcept (Value.binary op left right location))
      (Eval.ofExcept (Value.binary op left right location)) :=
  ofExcept fun _ done => .scalar (binary_scalar done)

theorem inFrame {frame : Frame} {body : Eval α} {other : Eval β} (echoes : Echoes pairs same body other) :
    Echoes pairs same (Eval.inFrame frame body) (Eval.inFrame frame other) := by
  intro machine twin twins
  have ended := echoes { machine with calls := machine.calls.push frame } { twin with calls := twin.calls.push frame }
    ⟨twins.store, by rw [twins.calls], twins.output, twins.closures⟩
  unfold Eval.inFrame
  cases ran : body { machine with calls := machine.calls.push frame } <;>
    cases echoed : other { twin with calls := twin.calls.push frame } <;> rw [ran, echoed] at ended
  · exact ⟨ended.1, ended.2.store, by rw [ended.2.calls], ended.2.output, ended.2.closures⟩
  · exact ended.elim
  · exact ended.elim
  · exact ⟨ended.1, ended.2.store, by rw [ended.2.calls], ended.2.output, ended.2.closures⟩

/-! ### Steps of the machine -/

theorem meet {event other : Event} : Echoes pairs Eq (Eval.meet event) (Eval.meet other) :=
  fun _ _ twins => ⟨rfl, twins.stored twins.store⟩

theorem openScope : Echoes pairs (fun inner inner' => inner' = inner.filterMap pairs ∧ Opened pairs inner)
    (Eval.openScope env) (Eval.openScope (env.filterMap pairs)) := by
  intro machine twin twins
  refine ⟨⟨twins.store.env_child env, ?_⟩, twins.stored (twins.store.child env (env.filterMap pairs))⟩
  rintro id ⟨⟩
  exact Option.isSome_iff_exists.mpr ⟨_, twins.store.fresh 0⟩

theorem inScope {next : Env → Eval α} {behind : Env → Eval β}
    (rest : ∀ inner, Opened pairs inner → Echoes pairs same (next inner) (behind (inner.filterMap pairs))) :
    Echoes pairs same (Eval.openScope env >>= next) (Eval.openScope (env.filterMap pairs) >>= behind) := by
  refine openScope.bind fun inner inner' both => ?_
  obtain ⟨rfl, opened⟩ := both
  exact rest inner opened

theorem bindTyped {type? : Option Ty} {value other : Value} {mutable : Bool} (opened : Opened pairs env)
    (twin : Twin pairs value other) :
    Echoes pairs Eq (Eval.bindTyped env name type? value mutable)
      (Eval.bindTyped (env.filterMap pairs) name type? other mutable) :=
  fun _ _ twins => ⟨rfl, twins.stored (twins.store.bind opened ⟨twin, rfl⟩)⟩

theorem lookup? : Echoes pairs (Option.Rel (Twin pairs)) (Eval.lookup? env name location)
    (Eval.lookup? (env.filterMap pairs) name location) :=
  fun _ _ twins => ⟨twins.store.get? env name, twins.stored twins.store⟩

theorem lookup : Echoes pairs (Twin pairs) (Eval.lookup env name location)
    (Eval.lookup (env.filterMap pairs) name location) := by
  intro machine twin twins
  have found := twins.store.get? env name
  unfold Eval.lookup
  cases one : machine.store.get? env name <;> cases two : twin.store.get? (env.filterMap pairs) name <;>
    rw [one, two] at found <;> cases found
  · exact ⟨rfl, twins.stored twins.store⟩
  · rename_i both
    exact ⟨both, twins.stored twins.store⟩

theorem lookupLocal? (opened : Opened pairs env) : Echoes pairs (Option.Rel (Twin pairs)) (Eval.lookupLocal? env name)
    (Eval.lookupLocal? (env.filterMap pairs) name) :=
  fun _ _ twins => ⟨twins.store.getLocal? opened name, twins⟩

theorem hasLocal (opened : Opened pairs env) :
    Echoes pairs Eq (Eval.hasLocal env name) (Eval.hasLocal (env.filterMap pairs) name) :=
  fun _ _ twins => ⟨(twins.store.hasLocal opened name).symm, twins⟩

theorem lookupIn {id id' : ScopeId} (paired : pairs id = some id') :
    Echoes pairs (Option.Rel (Twin pairs)) (Eval.lookupLocal? [id] name) (Eval.lookupLocal? [id'] name) := by
  have looks := @lookupLocal? pairs [id] name (by rintro _ ⟨⟩; exact Option.isSome_iff_exists.mpr ⟨_, paired⟩)
  rwa [List.filterMap_cons_some paired] at looks

theorem assign {value other : Value} (twin : Twin pairs value other) :
    Echoes pairs Eq (Eval.assign env name value location) (Eval.assign (env.filterMap pairs) name other location) := by
  intro machine twinMachine twins
  unfold Eval.assign
  rcases twins.store.target env name location with ⟨error, one, two⟩ | ⟨id, id', paired, one, two⟩
  · rw [one, two]
    exact ⟨rfl, twins.stored twins.store⟩
  · rw [one, two]
    exact ⟨rfl, twins.stored (twins.store.insert paired ⟨twin, rfl⟩)⟩

theorem depth : Echoes pairs Eq Eval.depth Eval.depth :=
  fun machine twin twins => ⟨by rw [twins.calls], twins⟩

theorem frame? : Echoes pairs Eq Eval.frame? Eval.frame? :=
  fun machine twin twins => ⟨by rw [twins.calls], twins⟩

theorem makeClosure {literal : FunctionLiteral} : Echoes pairs (Twin pairs) (Eval.makeClosure name literal env)
    (Eval.makeClosure name literal (env.filterMap pairs)) := by
  intro machine twin twins
  refine ⟨?_, twins.store, twins.calls, twins.output, by rw [twins.closures]⟩
  rw [twins.closures]
  exact .function _ _ _ _

theorem callBuiltin {function : Builtin} {args others : List Value} (twins : Twins pairs args others) :
    Echoes pairs (Twins pairs) (Eval.callBuiltin function args location) (Eval.callBuiltin function others location) := by
  intro machine twin machines
  have same : function.call others location = function.call args location := by
    rw [← call_bare, twins.bare, call_bare]
  unfold Eval.callBuiltin
  rw [same]
  cases called : function.call args location with
  | error error => exact ⟨rfl, machines⟩
  | ok outcome =>
      exact ⟨twins_of_scalars (builtin_scalar called), machines.store, machines.calls, by rw [machines.output],
        machines.closures⟩

/-! ### Names and values -/

theorem qualified {package : String} : Echoes pairs (Twin pairs) (Eval.qualified env package name location)
    (Eval.qualified (env.filterMap pairs) package name location) := by
  unfold Eval.qualified
  refine meet.bind fun _ _ _ => lookup?.bind fun one other found => ?_
  cases found with
  | none => exact fail
  | some twin =>
      cases twin with
      | function identity name literal env => exact fail
      | package paired =>
          refine choice ((lookupIn paired).bind fun one other found => ?_) fail
          cases found with
          | none => exact fail
          | some twin => exact pure twin
      | plain noFunction noPackage =>
          rename_i value
          cases value with
          | package ref => exact absurd rfl (noPackage ref)
          | _ => exact fail

theorem literalName : Echoes pairs Eq Eval.literalName Eval.literalName := by
  unfold Eval.literalName
  refine frame?.bind fun found other same => ?_
  cases same
  cases found <;> exact pure rfl

theorem storeValue {value other : Value} {source : Option Expr} (twin : Twin pairs value other) :
    Echoes pairs Eq (Eval.storeValue env name value source location)
      (Eval.storeValue (env.filterMap pairs) name other source location) := by
  rw [storeValue_eq, storeValue_eq]
  refine lookup.bind fun current current' twinCurrent => ?_
  have stored := twinCurrent.written twin source
  rw [twinCurrent.kind, stored.kind]
  exact choice (assign stored) fail

theorem storeValues {names : List String} {received others : List (Value × Option Expr)}
    (twins : PairTwins pairs received others) :
    Echoes pairs Eq (Eval.storeValues env location names received)
      (Eval.storeValues (env.filterMap pairs) location names others) := by
  induction names generalizing received others with
  | nil => exact pure rfl
  | cons name names ih =>
      cases twins with
      | nil => exact pure rfl
      | cons first rest =>
          obtain ⟨twin, same⟩ := first
          rw [Eval.storeValues, Eval.storeValues, ← same]
          exact choice (ih rest) ((storeValue twin).bind fun _ _ _ => ih rest)

theorem defineValues {names : List String} {received others : List (Value × Option Expr)} (opened : Opened pairs env)
    (twins : PairTwins pairs received others) :
    Echoes pairs Eq (Eval.defineValues env location names received)
      (Eval.defineValues (env.filterMap pairs) location names others) := by
  induction names generalizing received others with
  | nil => exact pure rfl
  | cons name names ih =>
      cases twins with
      | nil => exact pure rfl
      | cons first rest =>
          obtain ⟨twin, same⟩ := first
          rw [Eval.defineValues, Eval.defineValues, ← same]
          refine choice (ih rest) ((hasLocal opened).bind fun one two equal => ?_)
          cases equal
          exact choice ((storeValue twin).bind fun _ _ _ => ih rest) ((bindTyped opened twin).bind fun _ _ _ => ih rest)

theorem bindValues {mutable : Bool} {type? : Option Ty} {names : List String} {values others : List Value}
    (opened : Opened pairs env) (twins : Twins pairs values others) :
    Echoes pairs Eq (Eval.bindValues env mutable type? names values)
      (Eval.bindValues (env.filterMap pairs) mutable type? names others) := by
  induction names generalizing values others with
  | nil => exact pure rfl
  | cons name names ih =>
      cases twins with
      | nil => exact pure rfl
      | cons first rest => exact (bindTyped opened first).bind fun _ _ _ => ih rest

theorem declaredValue {type? : Option Ty} {value other : Value} {source : Option Expr} (twin : Twin pairs value other) :
    Echoes pairs (Twin pairs) (Eval.declaredValue type? location value source)
      (Eval.declaredValue type? location other source) := by
  cases type? with
  | none => exact pure twin
  | some type =>
      have coerced := twin.coerce source type
      unfold Eval.declaredValue
      dsimp only
      rw [coerced.conformsTo, coerced.kind]
      exact choice (pure coerced) fail

theorem declaredValues {type? : Option Ty} {received others : List (Value × Option Expr)}
    (twins : PairTwins pairs received others) :
    Echoes pairs (Twins pairs) (Eval.declaredValues type? location received)
      (Eval.declaredValues type? location others) := by
  induction twins with
  | nil => exact pure .nil
  | @cons one other _ _ first _ ih =>
      obtain ⟨twin, same⟩ := first
      rw [Eval.declaredValues, Eval.declaredValues, ← same]
      exact (declaredValue twin).bind fun _ _ here => ih.bind fun _ _ others => pure (.cons here others)

theorem returnedValues {types : List Ty} {received others : List (Value × Option Expr)}
    (twins : PairTwins pairs received others) :
    Echoes pairs (Twins pairs) (Eval.returnedValues location types received)
      (Eval.returnedValues location types others) := by
  induction types generalizing received others with
  | nil => exact pure .nil
  | cons type types ih =>
      cases twins with
      | nil => exact pure .nil
      | @cons one _ _ _ first rest =>
          obtain ⟨twin, same⟩ := first
          have coerced := twin.coerce one.2 type
          rw [Eval.returnedValues, Eval.returnedValues, ← same]
          dsimp only
          rw [coerced.conformsTo, coerced.kind]
          exact choice ((ih rest).bind fun _ _ others => pure (.cons coerced others)) fail

theorem bindParameters {function : String} {params : List Parameter} {args others : List Value}
    (opened : Opened pairs env) (twins : Twins pairs args others) :
    Echoes pairs Eq (Eval.bindParameters env function location params args)
      (Eval.bindParameters (env.filterMap pairs) function location params others) := by
  induction params generalizing args others with
  | nil => exact pure rfl
  | cons param params ih =>
      cases twins with
      | nil => exact pure rfl
      | cons twin rest =>
          rw [Eval.bindParameters, Eval.bindParameters, twin.conformsTo, twin.kind]
          exact choice ((bindTyped opened twin).bind fun _ _ _ => ih rest)
            ((@fail Unit Unit _ Eq _).bind fun _ _ _ => ih rest)

theorem bindResults {names : List String} {types : List Ty} (opened : Opened pairs env) :
    Echoes pairs Eq (Eval.bindResults env names types) (Eval.bindResults (env.filterMap pairs) names types) := by
  induction names generalizing types with
  | nil => exact pure rfl
  | cons name names ih =>
      cases types with
      | nil => exact pure rfl
      | cons type types => exact (bindTyped opened (.zero type)).bind fun _ _ _ => ih

theorem namedResults {names : List String} {types : List Ty} (opened : Opened pairs env) :
    Echoes pairs (Twins pairs) (Eval.namedResults env names types)
      (Eval.namedResults (env.filterMap pairs) names types) := by
  induction names generalizing types with
  | nil => exact pure .nil
  | cons name names ih =>
      cases types with
      | nil => exact pure .nil
      | cons type types =>
          refine (lookupLocal? opened).bind fun one other found => ih.bind fun _ _ others => pure (.cons ?_ others)
          cases found with
          | none => exact .zero type
          | some twin => exact twin

theorem resultsOf {signature : Signature} {flow other : Flow} (opened : Opened pairs env)
    (twin : FlowTwin pairs flow other) :
    Echoes pairs (Twins pairs) (Eval.resultsOf env signature flow)
      (Eval.resultsOf (env.filterMap pairs) signature other) := by
  cases twin with
  | «return» twins =>
      cases twins with
      | nil => exact choice (pure .nil) (namedResults opened)
      | cons first rest => exact pure (.cons first rest)
  | _ => exact pure .nil

theorem stepped {up : Bool} {value other : Value} (twin : Twin pairs value other) :
    Echoes pairs (Twin pairs) (Eval.stepped name up location value) (Eval.stepped name up location other) := by
  cases twin with
  | function identity name literal env => exact fail
  | package paired => exact fail
  | plain noFunction noPackage =>
      cases value with
      | int n => exact pure (.int _)
      | float x => exact pure (.float _)
      | _ => exact fail

end Echoes

end MiniGo.Running
