import MiniGo.Proofs.Running.Scoping

/-!
# Bindings keep their types

In every state that a session of an accepted program comes to, a binding is made once, holds a value
of a kind that variables have, and keeps that kind: a name that was declared with a type holds values
of the type. Calls that return give as many values as their function has results, each of its type.
-/

namespace MiniGo.Running

variable {packages : List Package}

/-- A store that a session has, or that an event of its past met. -/
def Seen (session : Session) (store : Store) : Prop :=
  store = session.machine.store ∨ ∃ event, session.machine.past store event

/-- The value of a binding may be stored: it is no tuple and no unit, and it is a package only in a
binding of a file that is never assigned to. -/
def Stored (packages : List Package) (place : Place) (binding : Binding) : Prop :=
  binding.value.kind ≠ .tuple ∧ binding.value.kind ≠ .unit ∧
  ∀ ref, binding.value = .package ref → binding.mutable = false ∧ place.IsFile (programOf packages)

/-- A name of a scope has values of a type only, in all states of a session. -/
def Conforms (session : Session) (id : ScopeId) (name : String) (type : Ty) : Prop :=
  ∀ store, Seen session store → ∀ binding, (store.scope id).find? name = some binding →
    binding.value.conformsTo type = true

theorem Loaded.agrees {program : Nat → Lexical.Facts} {world : World} {imports : Interfaces} {session : Session}
    {store : Store} (loaded : Loaded program world imports session) (seen : Seen session store) :
    Agrees world store := by
  rcases seen with rfl | ⟨event, happened⟩
  · exact loaded.inv.typed.agrees
  · exact (loaded.inv.past store event happened).1

theorem Slot.Holds.stored {world : World} {slot : Slot} {id : ScopeId} {name : String} {binding : Binding}
    (holds : slot.Holds binding) (sane : Sane (programOf packages) world)
    (known : world.slot id name = some slot) : Stored packages (world.place id) binding := by
  cases slot with
  | value kind mutable =>
      have storable := sane.storable id name kind mutable known
      obtain ⟨same, _⟩ := holds
      rw [← same] at storable
      refine ⟨fun tuple => ?_, fun unit => ?_, fun ref package => ?_⟩
      · rw [tuple] at storable
        exact nomatch storable
      · rw [unit] at storable
        exact nomatch storable
      · rw [package] at storable
        exact nomatch storable
  | package ref =>
      obtain ⟨same, constant⟩ := holds
      rw [Stored, same]
      exact ⟨nofun, nofun, fun _ _ => ⟨constant, sane.imports id name ref known⟩⟩

theorem Slot.Holds.sameKind {slot : Slot} {first second : Binding} (one : slot.Holds first)
    (other : slot.Holds second) :
    first.value.kind = second.value.kind ∧ first.mutable = second.mutable := by
  cases slot with
  | value kind mutable => exact ⟨one.1.trans other.1.symm, one.2.trans other.2.symm⟩
  | package ref =>
      refine ⟨?_, one.2.trans other.2.symm⟩
      rw [one.1, other.1]

/-! ## Calls that return -/

theorem eval_bind_ok {action : Eval α} {next : α → Eval β} {machine last : Machine} {result : β}
    (ran : (action >>= next) machine = .ok result last) :
    ∃ value after, action machine = .ok value after ∧ next value after = .ok result last := by
  rw [bind_run] at ran
  cases first : action machine with
  | error halt after =>
      rw [first] at ran
      exact nomatch ran
  | ok value after =>
      rw [first] at ran
      exact ⟨value, after, rfl, ran⟩

/-- A call of a function that returns is among the events. -/
theorem enter_returned {limit fuel : Nat} {closure : Closure} {args results : List Value}
    {location : Location} {machine next : Machine}
    (ran : Eval.enter limit fuel closure args location machine = .ok results next) :
    ∃ store, next.past store (.returned closure results) := by
  cases fuel with
  | zero => cases ran
  | succ fuel =>
      unfold Eval.enter at ran
      obtain ⟨active, _, _, ran⟩ := eval_bind_ok ran
      split at ran
      · cases ran
      split at ran
      · cases ran
      obtain ⟨env, _, _, ran⟩ := eval_bind_ok ran
      obtain ⟨_, _, _, ran⟩ := eval_bind_ok ran
      obtain ⟨_, _, _, ran⟩ := eval_bind_ok ran
      obtain ⟨flow, _, _, ran⟩ := eval_bind_ok ran
      obtain ⟨found, after, _, ran⟩ := eval_bind_ok ran
      split at ran
      · obtain ⟨_, _, met, ran⟩ := eval_bind_ok ran
        obtain ⟨rfl, rfl⟩ := EStateM.Result.ok.inj ran
        obtain ⟨_, rfl⟩ := EStateM.Result.ok.inj met
        exact ⟨after.store, Or.inr ⟨rfl, rfl⟩⟩
      · cases ran

/-- A call from outside that returns is among the events, with the function that was called. -/
theorem invoke_returned {session next : Session} {path name : String} {args results : List Value}
    (ran : Session.invoke path name args session = .ok results next) :
    ∃ closure store, session.function? path name = some (.function closure) ∧
      next.machine.past store (.returned closure results) := by
  rw [invoke_run] at ran
  cases found : session.function? path name with
  | none =>
      rw [found] at ran
      cases ran
  | some function =>
      rw [found] at ran
      unfold Session.function? at found
      split at found
      · cases found
      split at found
      · rename_i closure _
        obtain rfl := Option.some.inj found
        dsimp only at ran
        unfold Session.perform callFresh at ran
        cases fuel : session.fuel with
        | zero =>
            rw [fuel] at ran
            cases ran
        | succ fuel =>
            rw [fuel] at ran
            unfold Eval.apply at ran
            dsimp only at ran
            split at ran
            · rename_i values machine entered
              obtain ⟨rfl, rfl⟩ := EStateM.Result.ok.inj ran
              obtain ⟨store, happened⟩ := enter_returned entered
              exact ⟨closure, store, rfl, happened⟩
            · cases ran
      · cases found

/-! ## All states of a session -/

/-- Bindings are made once and keep their kinds, a name that is declared with a type holds values of the
type, only values that may be stored are stored, and calls give what their signatures say. -/
theorem bindings_keep_types {fuel : Nat} {settings : Settings} {output : Output} {entry : String}
    {session : Session} {given : List Value} (accepted : Accepted packages)
    (reached : Reached fuel settings output entry packages session given) :
    (∀ id name first second store later, Creates id name first → Creates id name second →
      session.machine.past store first → session.machine.past later second →
      (store.scope id).find? name = none ∧ store = later ∧ first = second) ∧
    (∃ place : ScopeId → Place,
      (∀ store env, session.machine.past store (.opened env) → ∃ index scope, scope ≠ 0 ∧
        (store.scopes.size :: env).map place
          = ((programOf packages index).table.chain scope).map (Place.of index)) ∧
      ∀ store, Seen session store → ∀ id name binding, (store.scope id).find? name = some binding →
        Stored packages (place id) binding) ∧
    (∀ store later, Seen session store → Seen session later → ∀ id name first second,
      (store.scope id).find? name = some first → (later.scope id).find? name = some second →
      first.value.kind = second.value.kind ∧ first.mutable = second.mutable) ∧
    (∀ store id outer name binding type, name ≠ blankName →
      session.machine.past store (.bound (id :: outer) name binding (some type)) →
      Conforms session id name type) ∧
    (∀ store closure results, session.machine.past store (.returned closure results) →
      Conform results closure.literal.signature.results) ∧
    ∀ path name args results next, (∀ arg ∈ args, Given given arg) →
      Session.invoke path name args session = .ok results next →
      ∃ closure, session.function? path name = some (.function closure) ∧
        Conform results closure.literal.signature.results := by
  -- Every part is read off the invariant of the loaded session: a creation, a slot, or what a call has met.
  obtain ⟨world, imports, loaded, offered⟩ := accepted.known reached
  refine ⟨?_, ⟨world.place, ?_, ?_⟩, ?_, ?_, ?_, ?_⟩
  · intro id name first second store later one other before after
    obtain ⟨_, good⟩ := loaded.inv.past store first before
    refine ⟨?_, loaded.inv.once id name first second store later one other before after⟩
    cases first with
    | bound env found binding type? =>
        obtain ⟨here, rfl, named⟩ := one
        exact (good.1 id here named).1
    | _ => exact nomatch one
  · exact fun store env happened => (loaded.inv.past store _ happened).2.2.2
  · intro store seen id name binding found
    obtain ⟨slot, known, holds⟩ := (loaded.agrees seen).2 id name binding found
    exact holds.stored loaded.inv.typed.sane known
  · intro store later seen seenLater id name first second found foundLater
    obtain ⟨slot, known, holds⟩ := (loaded.agrees seen).2 id name first found
    obtain ⟨other, knownLater, holdsLater⟩ := (loaded.agrees seenLater).2 id name second foundLater
    obtain rfl : slot = other := Option.some.inj (known.symm.trans knownLater)
    exact holds.sameKind holdsLater
  · intro store id outer name binding type named happened later seen found here
    obtain ⟨_, unbound, conforms⟩ := loaded.inv.past store _ happened
    obtain ⟨_, slot, known, holds⟩ := unbound id rfl named
    obtain ⟨other, knownLater, holdsLater⟩ := (loaded.agrees seen).2 id name found here
    obtain rfl : slot = other := Option.some.inj (known.symm.trans knownLater)
    exact conformsTo_of_kind (holdsLater.sameKind holds).1 (conforms type rfl)
  · exact fun store closure results happened => (loaded.inv.past store _ happened).2
  · intro path name args results next handed ran
    obtain ⟨closure, store, found, happened⟩ := invoke_returned ran
    have step := loaded.invoke path name (allOffered_of_given offered handed)
    rw [ran] at step
    obtain ⟨later, _, loadedLater, _⟩ := step
    exact ⟨closure, found, (loadedLater.inv.past store _ happened).2⟩

/-- The call of `LateName` gives one value, as the signature of its function says. -/
theorem late_name_gives_result :
    ∃ session next closure, Accepted [LateName.package] ∧
      Reached 100 .default .empty "main" [LateName.package] session [] ∧
      Session.invoke "main" "Main" [] session = .ok [.int 2] next ∧
      session.function? "main" "Main" = some (.function closure) ∧
      Conform [.int 2] closure.literal.signature.results := by
  have reached := Reached.loaded LateName.started
  obtain ⟨_, _, _, _, _, calls⟩ := bindings_keep_types LateName.accepted reached
  obtain ⟨closure, found, conform⟩ := calls "main" "Main" [] [.int 2] LateName.called
    (fun _ member => absurd member List.not_mem_nil) LateName.ran
  exact ⟨_, _, closure, LateName.accepted, reached, LateName.ran, found, conform⟩

end MiniGo.Running
