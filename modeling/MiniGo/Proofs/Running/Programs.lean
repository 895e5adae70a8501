import MiniGo.Proofs.Running.Loading

/-!
# Runs of whole programs

The packages of a program are loaded one after another, each against those before it, and then their
functions are called. `Loaded` is what is known of a session in between. `Reached` are the sessions of
a program: a caller hands over values that are no functions, or functions that it was given.
-/

namespace MiniGo.Running

open Lexical
open Initialization (real mem_real)

/-! ## Checked programs -/

/-- What the checks of packages find out, each against the packages before it. -/
def factsOf (imports : Interfaces) : List Package → List Facts
  | [] => []
  | package :: rest =>
      match package.checking imports SymbolTable.initial with
      | .error _ => []
      | .ok (interface, table) => ⟨table, imports⟩ :: factsOf ((package.path, interface) :: imports) rest

/-- What the checks of a program find out, by the positions of the packages. -/
def programOf (packages : List Package) (index : Nat) : Facts :=
  ((factsOf .initial packages)[index]?).getD ⟨SymbolTable.initial, .initial⟩

variable {program : Nat → Facts} {world : World} {session : Session}

/-- The packages from a position on were checked. -/
def AllPrepared (program : Nat → Facts) : Nat → Interfaces → List Package → Prop
  | _, _, [] => True
  | index, imports, package :: rest =>
      (program index).imports = imports ∧ (∃ indices, IsPrepared program index package indices) ∧
      AllPrepared program (index + 1)
        ((package.path, package.interfaceOf (program index).table 1) :: imports) rest

/-- Every table has the predeclared names in its outermost scope. -/
def AllGrounded (program : Nat → Facts) : Prop :=
  ∀ index name, name ∈ SymbolTable.predeclared.map (·.name) → (program index).Declares 0 name

theorem allPrepared_factsOf {packages : List Package} {imports interfaces : Interfaces} {index : Nat}
    (formed : ∀ package ∈ packages, FormedPackage package)
    (checked : checkAll imports packages = .ok interfaces)
    (same : ∀ offset < packages.length, (factsOf imports packages)[offset]? = some (program (index + offset))) :
    AllPrepared program index imports packages := by
  induction packages generalizing imports index with
  | nil => exact trivial
  | cons package packages ih =>
      obtain ⟨formedHere, formedRest⟩ := List.forall_mem_cons.mp formed
      obtain ⟨interface, first, rest⟩ := checkAll_cons checked
      obtain ⟨table, ran⟩ := check_ok first
      have here := same 0 (by simp)
      simp only [factsOf, ran, List.getElem?_cons_zero, Nat.add_zero, Option.some.injEq] at here
      obtain ⟨indices, prepared, rfl⟩ := checking_ok formedHere ran
      refine ⟨by rw [← here], ⟨indices, ?_⟩, ?_⟩
      · unfold IsPrepared
        rw [← here]
        exact prepared
      · rw [← here]
        refine ih formedRest rest fun offset inside => ?_
        have next := same (offset + 1) (by simpa using inside)
        simp only [factsOf, ran, List.getElem?_cons_succ] at next
        rw [next]
        congr 2
        omega

theorem length_factsOf {packages : List Package} {imports interfaces : Interfaces}
    (checked : checkAll imports packages = .ok interfaces) :
    (factsOf imports packages).length = packages.length := by
  induction packages generalizing imports with
  | nil => rfl
  | cons package packages ih =>
      obtain ⟨interface, first, rest⟩ := checkAll_cons checked
      obtain ⟨table, ran⟩ := check_ok first
      simp only [factsOf, ran, List.length_cons]
      exact congrArg (· + 1) (ih rest)

theorem allPrepared_programOf {packages : List Package} {interfaces : Interfaces}
    (formed : ∀ package ∈ packages, FormedPackage package)
    (checked : checkAll .initial packages = .ok interfaces) :
    AllPrepared (programOf packages) 0 .initial packages := by
  refine allPrepared_factsOf formed checked fun offset inside => ?_
  rw [← length_factsOf checked] at inside
  rw [programOf, Nat.zero_add, List.getElem?_eq_getElem inside, Option.getD_some]

theorem AllPrepared.grounded {packages : List Package} {index : Nat} {imports : Interfaces}
    (prepared : AllPrepared program index imports packages) (offset : Nat) (inside : offset < packages.length)
    {name : String} (member : name ∈ SymbolTable.predeclared.map (·.name)) :
    (program (index + offset)).Declares 0 name := by
  induction packages generalizing index imports offset with
  | nil => exact nomatch inside
  | cons package packages ih =>
      obtain ⟨_, ⟨indices, here⟩, rest⟩ := prepared
      cases offset with
      | zero => exact (here.layout.predeclared name).mpr member
      | succ offset =>
          have declared := ih rest offset (Nat.lt_of_succ_lt_succ inside)
          rwa [show index + 1 + offset = index + (offset + 1) by omega] at declared

theorem allGrounded_programOf {packages : List Package} {interfaces : Interfaces}
    (formed : ∀ package ∈ packages, FormedPackage package)
    (checked : checkAll .initial packages = .ok interfaces) : AllGrounded (programOf packages) := by
  intro index name member
  by_cases inside : index < packages.length
  · have declared := (allPrepared_programOf formed checked).grounded index inside member
    rwa [Nat.zero_add] at declared
  · have beyond : (factsOf .initial packages)[index]? = none := by
      rw [List.getElem?_eq_none_iff, length_factsOf checked]
      exact Nat.le_of_not_lt inside
    rw [programOf, beyond, Option.getD_none]
    refine (gains_initial.has name).mpr (Or.inr (mem_real.mpr ⟨member, ?_⟩))
    rintro rfl
    exact absurd member (by decide)

/-! ## Sessions -/

/-- All names that the place of a scope can have are bound to values. -/
def Complete (program : Nat → Facts) (world : World) (id : ScopeId) : Prop :=
  id < world.size ∧ ∀ name, (world.place id).Declares program name → HasValue world id name

theorem Complete.grows {top : Option ScopeId} {later : World} {id : ScopeId}
    (grows : Grows top world later) (complete : Complete program world id) :
    Complete program later id := by
  refine ⟨Nat.lt_of_lt_of_le complete.1 grows.size, fun name declared => ?_⟩
  rw [grows.place id complete.1] at declared
  exact (complete.2 name declared).grows grows

/-- A session in which the packages with some interfaces are loaded. -/
structure Loaded (program : Nat → Facts) (world : World) (imports : Interfaces) (session : Session) :
    Prop where
  inv : Inv program world session.machine
  grounded : Grounded world
  outermost : session.outermost = [0]
  offer : AllOffer world imports session
  complete : ∀ entry ∈ session.packages, Complete program world entry.2.scope

theorem Loaded.step {imports : Interfaces} {later : World} {machine : Machine}
    (loaded : Loaded program world imports session) (grows : Grows none world later)
    (inv : Inv program later machine) : Loaded program later imports { session with machine } where
  inv := inv
  grounded := loaded.grounded.grows grows
  outermost := loaded.outermost
  offer := loaded.offer.grows grows
  complete entry member := (loaded.complete entry member).grows grows

/-! ## The start -/

/-- Constants are bound in a new scope. -/
theorem typed_bindConstants {store : Store} {id : ScopeId} {constants : List (String × Value)}
    (typed : Typed program world store) (old : id < world.size)
    (declared : ∀ pair ∈ constants, (world.place id).Declares program pair.1)
    (named : ∀ pair ∈ constants, pair.1 ≠ blankName) (nodup : (constants.map (·.1)).Nodup)
    (free : ∀ pair ∈ constants, world.slot id pair.1 = none)
    (valid : ∀ world, ∀ pair ∈ constants, Valid program world pair.2) :
    ∃ later, Grows (some id) world later ∧
      Typed program later (Session.bindConstants store [id] constants) ∧
      ∀ pair ∈ constants, HasValue later id pair.1 := by
  induction constants generalizing world store with
  | nil => exact ⟨world, Grows.refl _ world, typed, nofun⟩
  | cons pair constants ih =>
      obtain ⟨name, value⟩ := pair
      obtain ⟨declaredHere, declaredRest⟩ := List.forall_mem_cons.mp declared
      obtain ⟨namedHere, namedRest⟩ := List.forall_mem_cons.mp named
      obtain ⟨freeHere, freeRest⟩ := List.forall_mem_cons.mp free
      have validHere := fun world => valid world (name, value) List.mem_cons_self
      obtain ⟨new, nodupRest⟩ := List.nodup_cons.mp nodup
      have grows := grows_bound (.value value.kind false) True freeHere
      have bound : Typed program (world.bound id name (.value value.kind false) True)
          (store.bind [id] name ⟨value, false⟩) :=
        typed.bind [] namedHere old freeHere ⟨rfl, rfl⟩ declaredHere
          (by rintro _ _ ⟨⟩; exact (validHere world).1) nofun (Or.inl trivial)
          fun _ _ _ _ => validHere world
      obtain ⟨later, growsRest, typedLater, values⟩ := ih bound old declaredRest namedRest nodupRest
        (fun pair member => by
          have apart : pair.1 ≠ name := fun same => new (same ▸ List.mem_map.mpr ⟨pair, member, rfl⟩)
          exact (if_neg fun both => apart both.2).trans (freeRest pair member)) fun world pair member => valid world pair (List.mem_cons_of_mem _ member)
      refine ⟨later, grows.trans growsRest, typedLater, List.forall_mem_cons.mpr ⟨?_, values⟩⟩
      exact HasValue.grows growsRest ⟨Or.inr ⟨trivial, rfl, rfl⟩, _, _, if_pos ⟨rfl, rfl⟩⟩

theorem typed_openConstants {store : Store} (place : Place) (constants : List (String × Value))
    (typed : Typed program world store)
    (declared : ∀ pair ∈ constants, place.Declares program pair.1)
    (named : ∀ pair ∈ constants, pair.1 ≠ blankName) (nodup : (constants.map (·.1)).Nodup)
    (valid : ∀ world, ∀ pair ∈ constants, Valid program world pair.2) :
    (Session.openConstants store constants).1 = [world.size] ∧
    ∃ later, Grows none world later ∧ Typed program later (Session.openConstants store constants).2 ∧
      world.size < later.size ∧ later.place world.size = place ∧
      ∀ pair ∈ constants, HasValue later world.size pair.1 := by
  have opened := grows_opened world place
  have here : (world.opened place).place world.size = place := if_pos rfl
  have size := typed.size
  have env : (store.child []).1 = [world.size] := by rw [← size]; rfl
  have old : world.size < (world.opened place).size := Nat.lt_succ_self _
  obtain ⟨later, grows, typedLater, values⟩ := typed_bindConstants (typed.child [] place) old
    (by rw [here]; exact declared) named nodup
    (fun pair _ => by
      cases known : world.slot world.size pair.1 with
      | none => exact known
      | some slot => exact absurd (typed.sane.old _ _ _ known) (Nat.lt_irrefl _)) valid
  refine ⟨env, later, opened.then grows fun id old same => ?_, ?_, ?_, ?_, values⟩
  · exact absurd (Option.some.inj same) (Nat.ne_of_gt old)
  · unfold Session.openConstants
    simpa only [env] using typedLater
  · exact Nat.lt_of_lt_of_le old grows.size
  · rw [grows.place _ old, here]

/-- Nothing is known at the very start. -/
def World.empty : World where
  size := 0
  place _ := .outermost
  slot _ _ := none
  ready _ _ := False
  constant _ _ := none

theorem typed_empty : Typed program World.empty Store.empty where
  sane :=
    { old := nofun
      declared := nofun
      storable := nofun
      imports := nofun
      blank := fun _ => rfl
      ready := nofun
      awake := nofun }
  size := rfl
  agrees := ⟨Nat.le_refl _, fun id name binding found => by
    simp [Store.scope, Store.empty] at found⟩
  bound := nofun
  valid _ _ _ _ _ _ known := nomatch known
  constant := nofun

theorem valid_predeclared (pair : String × Value) (member : pair ∈ Session.predeclared) :
    Valid program world pair.2 := by
  simp only [Session.predeclared, List.mem_cons, List.not_mem_nil, or_false] at member
  rcases member with rfl | rfl | rfl
  · exact valid_of_scalar rfl
  · exact valid_of_scalar rfl
  · exact valid_builtin .len

theorem valid_formatting (pair : String × Value) (member : pair ∈ Session.formatting) :
    Valid program world pair.2 := by
  obtain ⟨function, _, rfl⟩ := List.mem_map.mp member
  exact valid_builtin function

theorem names_formatting :
    Session.formatting.map (·.1) = Interface.formatting.members.map (·.1) := by
  simp [Session.formatting, Interface.formatting]

theorem member_formatting {name : String} :
    (Interface.formatting.member? name).isSome ↔ name ∈ Session.formatting.map (·.1) := by
  rw [names_formatting, Interface.member?, List.lookup_isSome_iff]
  constructor
  · rintro ⟨entry, inside, same⟩
    obtain rfl : name = entry.1 := by simpa using same
    exact List.mem_map.mpr ⟨entry, inside, rfl⟩
  · intro inside
    obtain ⟨entry, member, rfl⟩ := List.mem_map.mp inside
    exact ⟨entry, member, beq_self_eq_true _⟩

/-- At the start the formatting package is loaded. -/
theorem loaded_start (grounded : AllGrounded program) (fuel : Nat) (settings : Settings)
    (output : Output) :
    ∃ world, Loaded program world .initial (Session.start fuel settings output) := by
  have start : Typed program World.empty Store.empty := typed_empty
  have names : Session.predeclared.map (·.1) = SymbolTable.predeclared.map (·.name) := rfl
  -- First the predeclared names are bound in the outermost scope, then those of the formatting package in a scope
  -- of its own.
  obtain ⟨outermost, first, growsFirst, typedFirst, oldFirst, placeFirst, valuesFirst⟩ :=
    typed_openConstants .outermost Session.predeclared start
      (fun pair member index => grounded index pair.1 (names ▸ List.mem_map.mpr ⟨pair, member, rfl⟩))
      (by decide) (by decide) (fun _ => valid_predeclared)
  obtain ⟨inner, second, growsSecond, typedSecond, oldSecond, placeSecond, valuesSecond⟩ :=
    typed_openConstants .formatting Session.formatting typedFirst
      (fun pair member => member_formatting.mpr (List.mem_map.mpr ⟨pair, member, rfl⟩))
      (by decide) (by decide) (fun _ => valid_formatting)
  have shown : ∀ name, (Interface.formatting.member? name).isSome → HasValue second first.size name := by
    intro name member
    obtain ⟨pair, inside, rfl⟩ := List.mem_map.mp (member_formatting.mp member)
    exact valuesSecond pair inside
  refine ⟨second, ⟨typedSecond, nofun, nofun⟩, ?_, outermost, ?_, ?_⟩
  · refine ⟨Nat.lt_of_lt_of_le oldFirst growsSecond.size, ?_, fun name member => ?_⟩
    · rw [growsSecond.place 0 oldFirst]
      exact placeFirst
    · rw [← names] at member
      obtain ⟨pair, inside, rfl⟩ := List.mem_map.mp member
      exact HasValue.grows growsSecond (valuesFirst pair inside)
  · refine .cons ⟨rfl, rfl, fun name member => ?_⟩ .nil
    have scope : (Session.refer Builtin.formattingPath Builtin.formattingPath
        (Session.openConstants (Session.openConstants Store.empty Session.predeclared).2
          Session.formatting).1).scope = first.size := by rw [inner]; rfl
    rw [← scope] at shown
    exact shown name member
  · intro entry member
    obtain rfl := List.mem_singleton.mp member
    have scope : (Session.refer Builtin.formattingPath Builtin.formattingPath
        (Session.openConstants (Session.openConstants Store.empty Session.predeclared).2
          Session.formatting).1).scope = first.size := by rw [inner]; rfl
    have complete : Complete program second first.size := by
      refine ⟨oldSecond, fun name declared => ?_⟩
      rw [placeSecond] at declared
      exact shown name declared
    rw [← scope] at complete
    exact complete

/-! ## Loading -/

/-- A checked package is loaded, unless code of it stops. -/
theorem Loaded.load {index : Nat} {package : Package} {indices : List Nat}
    (prepared : IsPrepared program index package indices)
    (loaded : Loaded program world (program index).imports session) :
    match Session.load package session with
    | .ok _ next => ∃ later, Grows none world later ∧ Loaded program later
        ((package.path, package.interfaceOf (program index).table 1) :: (program index).imports) next
    | .error error next => Stopped error ∧ ∃ later, Grows none world later ∧
        Loaded program later (program index).imports next := by
  have ran := Runs.bindPackage prepared loaded.grounded loaded.outermost loaded.offer session.machine
    loaded.inv
  rw [Session.load, run_bind]
  cases outcome : Session.bindPackage package session with
  | error error next =>
      rw [show Session.bindPackage package { session with machine := session.machine } = _ from outcome]
        at ran
      obtain ⟨stopped, machine, later, rfl, grows, inv⟩ := ran
      exact ⟨stopped, later, grows, loaded.step grows inv⟩
  | ok env next =>
      rw [show Session.bindPackage package { session with machine := session.machine } = _ from outcome]
        at ran
      obtain ⟨machine, later, rfl, grows, inv, id, rfl, old, place, values⟩ := ran
      have reached := loaded.step grows inv
      have complete : Complete program later id := by
        refine ⟨old, fun name declared => ?_⟩
        rw [place] at declared
        exact values name declared
      refine ⟨later, grows, inv, reached.grounded, reached.outermost, .cons ⟨rfl, rfl, ?_⟩ reached.offer,
        List.forall_mem_cons.mpr ⟨complete, reached.complete⟩⟩
      exact fun name shown => values name (member_interfaceOf prepared.layout.regular shown)

theorem Loaded.loadAll {packages : List Package} {index : Nat} {imports : Interfaces}
    (prepared : AllPrepared program index imports packages)
    (loaded : Loaded program world imports session) :
    match Session.loadAll packages session with
    | .ok _ next => ∃ later imports, Loaded program later imports next
    | .error error next => Stopped error ∧ ∃ later imports, Loaded program later imports next := by
  induction packages generalizing index imports world session with
  | nil => exact ⟨world, imports, loaded⟩
  | cons package packages ih =>
      obtain ⟨rfl, ⟨indices, here⟩, rest⟩ := prepared
      have ran := loaded.load here
      rw [Session.loadAll, run_bind]
      cases outcome : Session.load package session with
      | error error next =>
          rw [outcome] at ran
          obtain ⟨stopped, later, _, loadedLater⟩ := ran
          exact ⟨stopped, later, _, loadedLater⟩
      | ok _ next =>
          rw [outcome] at ran
          obtain ⟨later, _, loadedLater⟩ := ran
          exact ih rest loadedLater

/-- Loading the packages of a checked program comes to an end of which the same is known. -/
theorem loaded_packages {packages : List Package} {interfaces : Interfaces}
    (formed : ∀ package ∈ packages, FormedPackage package)
    (checked : checkAll .initial packages = .ok interfaces) (fuel : Nat) (settings : Settings)
    (output : Output) (entry : String) :
    match loadPackages fuel settings output entry packages with
    | .ok _ next => ∃ world imports, Loaded (programOf packages) world imports next
    | .error error next => Stopped error ∧
        ∃ world imports, Loaded (programOf packages) world imports next := by
  obtain ⟨world, loaded⟩ :=
    loaded_start (allGrounded_programOf formed checked) fuel settings output
  have ran := loaded.loadAll (allPrepared_programOf formed checked)
  unfold loadPackages
  dsimp only
  rw [run_bind]
  cases outcome : Session.loadAll packages (Session.start fuel settings output) with
  | error error next =>
      rw [outcome] at ran
      exact ran
  | ok _ next =>
      rw [outcome] at ran
      obtain ⟨later, imports, loadedLater⟩ := ran
      exact ⟨later, imports, { loadedLater with }⟩

/-! ## Calls -/

/-- A function of a loaded package is one that code made. -/
theorem Loaded.offered {imports : Interfaces} {path name : String} {function : Value}
    (loaded : Loaded program world imports session)
    (found : session.function? path name = some function) : Offered program world function := by
  unfold Session.function? at found
  split at found
  · exact nomatch found
  rename_i ref known
  split at found
  · rename_i closure bound
    obtain rfl := Option.some.inj found
    obtain ⟨front, back, same, _⟩ := List.lookup_eq_some_iff.mp known
    have complete := loaded.complete (path, ref) (by simp [same])
    obtain ⟨binding, here, isClosure⟩ := Option.map_eq_some_iff.mp bound
    have typed := loaded.inv.typed
    obtain ⟨slot, slotKnown, _⟩ := typed.agrees.2 _ _ _ here
    obtain ⟨ready, kind, mutable, isValue⟩ := complete.2 name (typed.sane.declared _ _ _ slotKnown)
    rw [← isClosure]
    exact (typed.valid _ _ _ kind mutable here isValue ready).2
  · exact nomatch found

def callFresh (session : Session) (function : Value) (args : List Value) : Eval (List Value) :=
  fun machine => Eval.apply session.settings.maxCallDepth session.fuel function args Location.nowhere
    { machine with calls := .empty }

theorem invoke_run (session : Session) (path name : String) (args : List Value) :
    Session.invoke path name args session = match session.function? path name with
      | none => .error (.resolution (.missingEntry path name)) session
      | some function => Session.perform (fun error => error) (callFresh session function args) session := by
  unfold Session.invoke
  rw [run_bind]
  change (match session.function? path name with
    | none => _
    | some function => _ : Run (List Value)) session = _
  cases session.function? path name <;> rfl

theorem Runs.callFresh {function : Value} {args : List Value} (offered : Offered program world function)
    (given : AllOffered program world args) :
    Runs program session none world
      (Session.perform (fun error => error) (callFresh session function args))
      (fun later results => AllValid program later results) := by
  intro machine inv
  have keeps : Keeps program .empty none world (Eval.apply session.settings.maxCallDepth session.fuel
      function args Location.nowhere) _ := (sound program _ _).apply offered given
  have ran := keeps { machine with calls := .empty } ⟨inv.typed, inv.past, inv.once⟩ rfl
  unfold Session.perform Running.callFresh
  dsimp only
  cases outcome : Eval.apply session.settings.maxCallDepth session.fuel function args Location.nowhere
      { machine with calls := .empty } with
  | error halt next =>
      rw [outcome] at ran
      obtain ⟨excused, later, grows, invLater⟩ := ran
      exact ⟨stopped_of_excused excused, next, later, rfl, grows, invLater⟩
  | ok results next =>
      rw [outcome] at ran
      obtain ⟨_, later, grows, invLater, valid⟩ := ran
      exact ⟨next, later, rfl, grows, invLater, valid⟩

/-- A call from outside keeps what is known of a session. -/
theorem Loaded.invoke {imports : Interfaces} {args : List Value}
    (loaded : Loaded program world imports session) (path name : String)
    (given : AllOffered program world args) :
    match Session.invoke path name args session with
    | .ok results next => ∃ later, Grows none world later ∧ Loaded program later imports next ∧
        AllOffered program later results
    | .error error next => (Stopped error ∨ error = .resolution (.missingEntry path name)) ∧
        ∃ later, Grows none world later ∧ Loaded program later imports next := by
  rw [invoke_run]
  cases found : session.function? path name with
  | none => exact ⟨Or.inr rfl, world, Grows.refl none world, loaded⟩
  | some function =>
      have runs : Runs program session none world _ _ :=
        Runs.callFresh (loaded.offered found) given
      have ran := runs session.machine loaded.inv
      dsimp only
      cases outcome : Session.perform (fun error => error) (callFresh session function args) session with
      | error error next =>
          rw [show Session.perform _ _ { session with machine := session.machine } = _ from outcome] at ran
          obtain ⟨stopped, machine, later, rfl, grows, inv⟩ := ran
          exact ⟨Or.inl stopped, later, grows, loaded.step grows inv⟩
      | ok results next =>
          rw [show Session.perform _ _ { session with machine := session.machine } = _ from outcome] at ran
          obtain ⟨machine, later, rfl, grows, inv, valid⟩ := ran
          exact ⟨later, grows, loaded.step grows inv, fun value member => (valid value member).2⟩

/-! ## Reached sessions -/

/-- A value that a caller may hand over: no function of the language, or one that the caller was
given. -/
def Given (returned : List Value) (value : Value) : Prop :=
  (∀ closure, value ≠ .function closure) ∨ value ∈ returned

/-- The sessions that a program comes to, with the values that calls from outside gave so far. A
session goes on after an error; between calls the text that was printed may be taken and another
package may be chosen to start in. -/
inductive Reached (fuel : Nat) (settings : Settings) (output : Output) (entry : String)
    (packages : List Package) : Session → List Value → Prop where
  | loaded {session : Session} :
      loadPackages fuel settings output entry packages = .ok () session →
      Reached fuel settings output entry packages session []
  | halted {error : Error} {session : Session} :
      loadPackages fuel settings output entry packages = .error error session →
      Reached fuel settings output entry packages session []
  | returned {session next : Session} {given : List Value} {path name : String}
      {args results : List Value} : Reached fuel settings output entry packages session given →
      (∀ arg ∈ args, Given given arg) → Session.invoke path name args session = .ok results next →
      Reached fuel settings output entry packages next (given ++ results)
  | failed {session next : Session} {given : List Value} {path name : String} {args : List Value}
      {error : Error} : Reached fuel settings output entry packages session given →
      (∀ arg ∈ args, Given given arg) → Session.invoke path name args session = .error error next →
      Reached fuel settings output entry packages next given
  | printed {session next : Session} {given : List Value} {text : String} :
      Reached fuel settings output entry packages session given →
      Session.takeOutput session = .ok text next →
      Reached fuel settings output entry packages next given
  | redirected {session next : Session} {given : List Value} (path : String) :
      Reached fuel settings output entry packages session given →
      Session.setEntryPackage path session = .ok () next →
      Reached fuel settings output entry packages next given

theorem allOffered_of_given {given args : List Value} (offered : AllOffered program world given)
    (all : ∀ arg ∈ args, Given given arg) : AllOffered program world args := by
  intro arg member
  rcases all arg member with plain | before
  · exact fun closure same => absurd same (plain closure)
  · exact offered arg before

/-- What is known of a session that a checked program comes to. -/
theorem Reached.loaded_session {fuel : Nat} {settings : Settings} {output : Output} {entry : String}
    {packages : List Package} {interfaces : Interfaces} {given : List Value}
    (formed : ∀ package ∈ packages, FormedPackage package)
    (checked : checkAll .initial packages = .ok interfaces)
    (reached : Reached fuel settings output entry packages session given) :
    ∃ world imports, Loaded (programOf packages) world imports session ∧
      AllOffered (programOf packages) world given := by
  have start := loaded_packages formed checked fuel settings output entry
  -- Whatever the caller does, the session stays loaded and what it has been given stays offered.
  induction reached with
  | loaded ran =>
      rw [ran] at start
      obtain ⟨world, imports, loaded⟩ := start
      exact ⟨world, imports, loaded, nofun⟩
  | halted ran =>
      rw [ran] at start
      obtain ⟨_, world, imports, loaded⟩ := start
      exact ⟨world, imports, loaded, nofun⟩
  | @returned session next given path name args results _ handed ran ih =>
      obtain ⟨world, imports, loaded, offered⟩ := ih
      have step := loaded.invoke path name (allOffered_of_given offered handed)
      rw [ran] at step
      obtain ⟨later, grows, loadedLater, offeredResults⟩ := step
      refine ⟨later, imports, loadedLater, fun value member => ?_⟩
      exact (List.mem_append.mp member).elim (AllOffered.grows grows offered value) (offeredResults value)
  | @failed session next given path name args error _ handed ran ih =>
      obtain ⟨world, imports, loaded, offered⟩ := ih
      have step := loaded.invoke path name (allOffered_of_given offered handed)
      rw [ran] at step
      obtain ⟨_, later, grows, loadedLater⟩ := step
      exact ⟨later, imports, loadedLater, AllOffered.grows grows offered⟩
  | printed _ ran ih =>
      obtain ⟨world, imports, loaded, offered⟩ := ih
      obtain ⟨_, rfl⟩ := EStateM.Result.ok.inj ran
      have inv := loaded.inv
      exact ⟨world, imports, { loaded with inv := ⟨inv.typed, inv.past, inv.once⟩ }, offered⟩
  | redirected path _ ran ih =>
      obtain ⟨world, imports, loaded, offered⟩ := ih
      obtain ⟨_, rfl⟩ := EStateM.Result.ok.inj ran
      exact ⟨world, imports, { loaded with }, offered⟩

end MiniGo.Running
