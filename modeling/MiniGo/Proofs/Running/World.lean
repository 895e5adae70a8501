import MiniGo.Proofs.Lexical.Judgement
import MiniGo.Eval.Evaluate

/-!
# What is known of a store

A world says what a run knows of its store: which scope of which package every scope of the store
stands for, the kind of every binding, and which bindings are ready to be used. Worlds grow and never
change their mind: `Grows` is the order on them.

* `Fits` relates the layers of a context to the scopes of an environment.
* `Valid` is a value that code may meet: a function among them was judged in a context that fits.
* `Good` is what an event of the past says in a world.
* `Inv` is the invariant of machines.
-/

namespace MiniGo.Running

open Lexical

/-- What a scope of the store stands for: the scope of all packages, that of the formatting package,
or a scope that the checker entered in a package. -/
inductive Place where
  | outermost
  | formatting
  | inside (package scope : Nat)

/-- The place of a scope of the checker; the outermost scope is the same for all packages. -/
def Place.of (package scope : Nat) : Place :=
  if scope = 0 then .outermost else .inside package scope

/-- What is known of a binding. -/
inductive Slot where
  | value (kind : Kind) (mutable : Bool)
  | package (ref : PackageRef)

/-- A binding is as it is known to be. -/
def Slot.Holds : Slot → Binding → Prop
  | .value kind mutable, binding => binding.value.kind = kind ∧ binding.mutable = mutable
  | .package ref, binding => binding.value = .package ref ∧ binding.mutable = false

def isStorable : Kind → Bool
  | .package | .tuple | .unit => false
  | _ => true

/-- What is known of a store. -/
structure World where
  size : Nat
  place : ScopeId → Place
  slot : ScopeId → String → Option Slot
  ready : ScopeId → String → Prop
  /-- Values of bindings that are never written. -/
  constant : ScopeId → String → Option Value

/-- One world is later than another; of the scopes of the earlier one, only the scope `top` has new
names. -/
structure Grows (top : Option ScopeId) (before after : World) : Prop where
  size : before.size ≤ after.size
  place : ∀ id < before.size, after.place id = before.place id
  slot : ∀ id name slot, before.slot id name = some slot → after.slot id name = some slot
  fixed : ∀ id < before.size, top ≠ some id → after.slot id = before.slot id
  ready : ∀ id name, before.ready id name → after.ready id name
  constant : ∀ id name value, before.constant id name = some value → after.constant id name = some value

/-- A store has only bindings that are known. -/
def Agrees (world : World) (store : Store) : Prop :=
  store.scopes.size ≤ world.size ∧
  ∀ id name binding, (store.scope id).find? name = some binding →
    ∃ slot, world.slot id name = some slot ∧ slot.Holds binding

/-! ## Contexts and values -/

/-- A binding is ready, and it is a value. -/
def HasValue (world : World) (id : ScopeId) (name : String) : Prop :=
  world.ready id name ∧ ∃ kind mutable, world.slot id name = some (.value kind mutable)

/-- What a name stands for is known of its binding; behind an import stands a package with all
names that its path shows. -/
def Means (facts : Facts) (world : World) (id : ScopeId) (name : String) : Meaning → Prop
  | .value => ∃ kind mutable, world.slot id name = some (.value kind mutable)
  | .package path => ∃ ref, world.slot id name = some (.package ref) ∧
      ∀ member, facts.Shows path member → isExported member = true → HasValue world ref.scope member

/-- A scope of the store is as a layer says. -/
structure LayerFits (facts : Facts) (world : World) (package : Nat) (layer : Layer) (id : ScopeId) :
    Prop where
  old : id < world.size
  place : world.place id = .of package layer.scope
  names : ∀ name meaning, layer.names name = some meaning →
    world.ready id name ∧ Means facts world id name meaning
  own : layer.mode = .own → ∀ name slot, world.slot id name = some slot → (layer.names name).isSome

section

variable (program : Nat → Facts)

/-- The scopes of an environment are as the layers of a context say. -/
structure Fits (world : World) (package : Nat) (context : Context) (env : Env) : Prop where
  layers : List.Forall₂ (LayerFits (program package) world package) context env
  order : env.Pairwise (· > ·)

/-- A function value was judged in a context that fits the scopes it captured. -/
def ClosureFits (world : World) (closure : Closure) : Prop :=
  ∃ package context, Fits program world package context closure.env ∧
    (∀ layer ∈ context, layer.mode ≠ .own) ∧
    Judged.function (program package) context closure.literal

/-- A value that may be given to code: a function among them is one that code made. -/
def Offered (world : World) (value : Value) : Prop :=
  ∀ closure, value = .function closure → ClosureFits program world closure

/-- A value that code may meet. -/
def Valid (world : World) (value : Value) : Prop :=
  isStorable value.kind = true ∧ Offered program world value

/-! ## Events -/

/-- A scope around a use may get the name of the use later: it is a block that declares the name, and
a function inside it is around the use. -/
def Late (facts : Facts) (use : Use) (position : Nat) : Prop :=
  position < use.depth ∧
  (∃ scope kind, use.scopes[position]? = some scope ∧ facts.Declares scope use.name ∧
    facts.kind? scope = some kind ∧ isOuter kind = false) ∧
  ∃ nearer < position, ∃ scope kind, use.scopes[nearer]? = some scope ∧
    facts.kind? scope = some kind ∧ isFunction kind = true

/-- A name that a run reads or assigns, against what the checker recorded: the scopes are those of
the record, the name is bound in the scope that the checker found, and it is touched there unless a
nearer scope got it later. -/
structure Touches (facts : Facts) (world : World) (package : Nat) (store : Store) (env : Env)
    (name : String) (location : Location) (use : Use) (position : Nat) : Prop where
  recorded : facts.table.uses use
  sameName : use.name = name
  sameLocation : use.location = location
  old : ∀ id ∈ env, id < world.size
  scopes : env.map world.place = use.scopes.map (Place.of package)
  resolved : ∃ id binding, env[use.depth]? = some id ∧ (store.scope id).find? name = some binding
  touched : ∃ id binding, env[position]? = some id ∧ (store.scope id).find? name = some binding
  passed : ∀ nearer < position, ∀ id, env[nearer]? = some id → (store.scope id).find? name = none
  late : position = use.depth ∨ Late facts use position

/-- A name behind a point is found in the package that the checker found, unless the name of the
package was touched in a nearer scope. -/
def Selects (store : Store) (env : Env) (package name : String) (use : Use) (position : Nat) : Prop :=
  isExported name = true ∧
  (position = use.depth → ∃ ref value, store.get? env package = some (.package ref) ∧
    store.getLocal? [ref.scope] name = some value) ∧
  (position < use.depth → ∀ ref, store.get? env package ≠ some (.package ref))

/-- What an event and the store that it met have to do with a world. -/
def Good (world : World) (store : Store) : Event → Prop
  | .opened env =>
      store.scopes.size < world.size ∧ (∀ id ∈ env, id < world.size) ∧
      ∃ package scope, scope ≠ 0 ∧ (store.scopes.size :: env).map world.place
        = ((program package).table.chain scope).map (Place.of package)
  | .bound env name binding type? =>
      (∀ id, env.head? = some id → name ≠ blankName → (store.scope id).find? name = none ∧
        ∃ slot, world.slot id name = some slot ∧ slot.Holds binding) ∧
      ∀ type, type? = some type → binding.value.conformsTo type = true
  | .used env name location =>
      ∃ package use position,
        Touches (program package) world package store env name location use position
  | .selected env package name location =>
      ∃ index use position,
        Touches (program index) world index store env package location use position ∧
        Selects store env package name use position
  | .returned closure results =>
      List.Forall₂ (fun value type => value.conformsTo type = true) results
        closure.literal.signature.results
  | .called _ _ _ => True

/-! ## Machines -/

/-- The names that the place of a scope can have. -/
def Place.Declares : Place → String → Prop
  | .outermost, name => ∀ package, (program package).Declares 0 name
  | .formatting, name => (Interface.formatting.member? name).isSome
  | .inside package scope, name => (program package).Declares scope name

/-- The place is that of a package. -/
def Place.IsPackage : Place → Prop
  | .inside package scope => ∃ name, (program package).kind? scope = some (.package name)
  | _ => False

/-- The place is a file of a package. -/
def Place.IsFile : Place → Prop
  | .inside package scope => ∃ path, (program package).kind? scope = some (.file path)
  | _ => False

/-- What is known of single scopes fits the places of the scopes. -/
structure Sane (world : World) : Prop where
  old : ∀ id name slot, world.slot id name = some slot → id < world.size
  declared : ∀ id name slot, world.slot id name = some slot →
    (world.place id).Declares program name
  storable : ∀ id name kind mutable, world.slot id name = some (.value kind mutable) →
    isStorable kind = true
  imports : ∀ id name ref, world.slot id name = some (.package ref) →
    (world.place id).IsFile program
  blank : ∀ id, world.slot id blankName = none
  ready : ∀ id name, world.ready id name → ∃ slot, world.slot id name = some slot
  awake : ∀ id name slot, world.slot id name = some slot →
    world.ready id name ∨ (world.place id).IsPackage program

/-- A store is as it is known to be, and every value that is ready is valid. -/
structure Typed (world : World) (store : Store) : Prop where
  sane : Sane program world
  size : store.scopes.size = world.size
  agrees : Agrees world store
  bound : ∀ id name slot, world.slot id name = some slot →
    ∃ binding, (store.scope id).find? name = some binding
  valid : ∀ id name binding kind mutable, (store.scope id).find? name = some binding →
    world.slot id name = some (.value kind mutable) → world.ready id name →
    Valid program world binding.value
  constant : ∀ id name value, world.constant id name = some value →
    (store.scope id).find? name = some ⟨value, false⟩

/-- An event gives a name of a scope its binding. -/
def Creates (id : ScopeId) (name : String) : Event → Prop
  | .bound env other _ _ => env.head? = some id ∧ other = name ∧ name ≠ blankName
  | _ => False

/-- The invariant of machines. -/
structure Inv (world : World) (machine : Machine) : Prop where
  typed : Typed program world machine.store
  past : ∀ store event, machine.past store event → Agrees world store ∧ Good program world store event
  once : ∀ id name first second store later, Creates id name first → Creates id name second →
    machine.past store first → machine.past later second → store = later ∧ first = second

/-! ## Steps of worlds -/

/-- One more scope, without names. -/
def World.opened (world : World) (place : Place) : World where
  size := world.size + 1
  place id := if id = world.size then place else world.place id
  slot := world.slot
  ready := world.ready
  constant := world.constant

/-- One more binding, which is ready if it is `awake`. -/
def World.bound (world : World) (id : ScopeId) (name : String) (slot : Slot) (awake : Prop) :
    World where
  size := world.size
  place := world.place
  slot other x := if other = id ∧ x = name then some slot else world.slot other x
  ready other x := world.ready other x ∨ (awake ∧ other = id ∧ x = name)
  constant := world.constant

/-- The value of one more binding is known. -/
def World.kept (world : World) (id : ScopeId) (name : String) (value : Value) : World where
  size := world.size
  place := world.place
  slot := world.slot
  ready := world.ready
  constant other x := if other = id ∧ x = name then some value else world.constant other x

/-- The slot that a name means in an environment, with the scope it is in. -/
def World.find? (world : World) : Env → String → Option (ScopeId × Slot)
  | [], _ => none
  | id :: outer, name =>
      match world.slot id name with
      | some slot => some (id, slot)
      | none => find? world outer name

/-- More bindings are ready. -/
def World.wake (world : World) (more : ScopeId → String → Prop) : World where
  size := world.size
  place := world.place
  slot := world.slot
  ready id name := world.ready id name ∨ more id name
  constant := world.constant

end

end MiniGo.Running
