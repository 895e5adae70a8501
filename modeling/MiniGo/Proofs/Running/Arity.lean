import MiniGo.Proofs.Running.Accepted
import MiniGo.Proofs.Running.Counting

/-!
# Numbers of values in sessions

In every state that a session of an accepted program comes to, a call of the code gave as many values as
the function has that it called. A function may be called through a variable that was assigned another
function, and function types are not told apart then; so a call may give another number of values than
the checker found. When code stops because of a number of values, then directly behind such a call.
-/

namespace MiniGo.Running

open Lexical

variable {counts : Counts} {session : Session}

/-- A failure because of a number of values comes directly behind a call that gave this number. -/
def ExplainedError (counts : Counts) (machine : Machine) (error : Error) : Prop :=
  ∀ fault found, error.cause = .runtime fault → miscount? fault = some found → Miscounted counts machine found

theorem Explained.toError {machine : Machine} {halt : Halt} {error : Error}
    (explained : Explained counts machine halt) (same : error.cause = halt.toError.cause) :
    ExplainedError counts machine error := by
  intro fault found isFault wrong
  rw [same] at isFault
  cases halt with
  | exhausted => cases isFault
  | fault fault =>
      cases isFault
      exact explained found wrong

/-- How a step of a session ends that keeps accounts. -/
def Tracked (counts : Counts) (post : α → Prop) : EStateM.Result Error Session α → Prop
  | .ok value next => Accounts counts next.machine ∧ post value
  | .error error next => Accounts counts next.machine ∧ ExplainedError counts next.machine error

/-- A step of a session keeps accounts, and `post` holds of its result. -/
def Tracks (counts : Counts) (run : Run α) (post : α → Prop) : Prop :=
  ∀ session, Accounts counts session.machine → Tracked counts post (run session)

namespace Tracks

variable {middle : α → Prop} {post : α → Prop} {last : β → Prop}

theorem pure {value : α} (holds : post value) : Tracks counts (Pure.pure value) post :=
  fun _ accounts => ⟨accounts, holds⟩

theorem bind {run : Run α} {next : α → Run β} (first : Tracks counts run middle)
    (rest : ∀ value, middle value → Tracks counts (next value) last) : Tracks counts (run >>= next) last := by
  intro session accounts
  have ran := first session accounts
  rw [run_bind]
  cases outcome : run session with
  | error error after =>
      rw [outcome] at ran
      exact ran
  | ok value after =>
      rw [outcome] at ran
      exact rest value ran.2 after ran.1

theorem get : Tracks counts (MonadState.get : Run Session) (fun _ => True) :=
  fun _ accounts => ⟨accounts, trivial⟩

theorem modify {change : Session → Session} (same : ∀ session, (change session).machine = session.machine) :
    Tracks counts (modify change : Run Unit) (fun _ => True) :=
  fun session accounts => ⟨(same session).symm ▸ accounts, trivial⟩

theorem throw {error : Error} (other : ∀ fault, error.cause ≠ .runtime fault) :
    Tracks counts (MonadExcept.throw error : Run α) post :=
  fun _ accounts => ⟨accounts, fun fault _ isFault => absurd isFault (other fault)⟩

theorem perform {place : Error → Error} {action : Eval α}
    (same : ∀ error, (place error).cause = error.cause)
    (balances : ∀ calls, Balances counts calls action fun value _ => post value) :
    Tracks counts (Session.perform place action) post := by
  intro session accounts
  have ran := balances session.machine.calls session.machine accounts rfl
  unfold Session.perform
  cases outcome : action session.machine with
  | error halt next =>
      rw [outcome] at ran
      exact ⟨ran.1, ran.2.toError (same _)⟩
  | ok value next =>
      rw [outcome] at ran
      exact ⟨ran.2.1, ran.2.2⟩

/-! ## Loading -/

theorem bindImports {file : SourceFile} {env : Env} {imports : List Import} :
    Tracks counts (Session.bindImports file env imports) (fun _ => True) := by
  induction imports with
  | nil => exact pure trivial
  | cons found imports ih =>
      unfold Session.bindImports
      refine get.bind fun session _ => ?_
      split
      · have fails : ∀ path error, Tracks counts (MonadExcept.throw (.inFile path (.resolution error)) : Run PUnit)
            (fun _ => True) := fun path error => throw fun fault => by rintro ⟨⟩
        exact (fails _ _).bind fun _ _ => ih
      · have binds : ∀ name ref, Tracks counts
            (Session.perform (fun error => error) (Eval.bind env name (.package ref) false)) (fun _ => True) :=
          fun name ref => perform (fun _ => rfl) fun _ => Balances.bindTyped (by rintro _ ⟨⟩)
        exact (binds _ _).bind fun _ _ => ih

theorem openFiles {env : Env} {files : List SourceFile} :
    Tracks counts (Session.openFiles env files) (fun _ => True) := by
  induction files with
  | nil => exact pure trivial
  | cons file files ih =>
      exact (perform (fun _ => rfl) fun _ => Balances.openScope).bind fun _ _ => bindImports.bind fun _ _ =>
        ih.bind fun _ _ => pure trivial

theorem bindFunctions {env inner : Env} {functions : List (String × FunctionLiteral)}
    (counted : ∀ function ∈ functions, Counted.function counts function.2) :
    Tracks counts (Session.bindFunctions env inner functions) (fun _ => True) := by
  induction functions with
  | nil => exact pure trivial
  | cons function functions ih =>
      obtain ⟨here, others⟩ := List.forall_mem_cons.mp counted
      exact (perform (fun _ => rfl) fun _ => Balances.makeClosure here).bind fun _ has =>
        (perform (fun _ => rfl) fun _ => Balances.bindTyped has).bind fun _ _ => ih others

theorem bindFiles {env : Env} {pairs : List (SourceFile × Env)}
    (counted : ∀ pair ∈ pairs, ∀ function ∈ pair.1.program.functions, Counted.function counts function.2) :
    Tracks counts (Session.bindFiles env pairs) (fun _ => True) := by
  induction pairs with
  | nil => exact pure trivial
  | cons pair pairs ih =>
      obtain ⟨here, others⟩ := List.forall_mem_cons.mp counted
      exact (bindFunctions here).bind fun _ _ => ih others

theorem runInitializers {package : Package} {env : Env} {inner : List Env} {items : List Initializer}
    (counted : ∀ item ∈ items, Counted.valueDecl counts item.decl) :
    Tracks counts (Session.runInitializers package env inner items) (fun _ => True) := by
  induction items with
  | nil => exact pure trivial
  | cons item items ih =>
      obtain ⟨here, others⟩ := List.forall_mem_cons.mp counted
      have declares : ∀ (session : Session) here, Tracks counts
          (Session.perform (.inFile (package.filePath item.file))
            (Eval.declare session.settings.maxCallDepth session.fuel here env item.decl)) (fun _ => True) :=
        fun session _ => perform (fun _ => rfl) fun _ => (counting counts _ _).declare here
      exact get.bind fun session _ => (declares session _).bind fun _ _ => ih others

theorem bindPackage {package : Package} (counted : PackageCounted counts package) :
    Tracks counts (Session.bindPackage package) (fun _ => True) := by
  obtain ⟨order, inOrder, initializers⟩ := counted.initializers
  unfold Session.bindPackage
  rw [inOrder]
  refine get.bind fun session _ => (perform (fun _ => rfl) fun _ => Balances.openScope).bind fun env _ =>
    openFiles.bind fun inner _ => (bindFiles fun pair member => ?_).bind fun _ _ =>
      (runInitializers initializers).bind fun _ _ => pure trivial
  exact counted.functions pair.1 (List.of_mem_zip member).1

theorem load {package : Package} (counted : PackageCounted counts package) :
    Tracks counts (Session.load package) (fun _ => True) :=
  (bindPackage counted).bind fun _ _ => modify fun _ => rfl

theorem loadAll {packages : List Package} (counted : ∀ package ∈ packages, PackageCounted counts package) :
    Tracks counts (Session.loadAll packages) (fun _ => True) := by
  induction packages with
  | nil => exact pure trivial
  | cons package packages ih =>
      obtain ⟨here, others⟩ := List.forall_mem_cons.mp counted
      exact (load here).bind fun _ _ => ih others

/-! ## Calls -/

theorem callFresh {function : Value} {args : List Value} (has : HasCounts counts function)
    (all : AllHaveCounts counts args) :
    Tracks counts (Session.perform (fun error => error) (Running.callFresh session function args))
      (AllHaveCounts counts) := by
  intro opened accounts
  have balances : Balances counts .empty (Eval.apply session.settings.maxCallDepth session.fuel function args
      Location.nowhere) _ := (counting counts _ _).apply has all
  have ran := balances { opened.machine with calls := .empty } ⟨accounts.stored, accounts.past⟩ rfl
  unfold Session.perform Running.callFresh
  dsimp only
  cases outcome : Eval.apply session.settings.maxCallDepth session.fuel function args Location.nowhere
      { opened.machine with calls := .empty } with
  | error halt next =>
      rw [outcome] at ran
      exact ⟨ran.1, ran.2.toError rfl⟩
  | ok results next =>
      rw [outcome] at ran
      exact ⟨ran.2.1, ran.2.2.1⟩

theorem invoke (path name : String) {args : List Value} (all : AllHaveCounts counts args) :
    Tracks counts (Session.invoke path name args) (AllHaveCounts counts) := by
  intro session accounts
  rw [invoke_run]
  cases found : session.function? path name with
  | none => exact ⟨accounts, fun fault _ isFault => by cases isFault⟩
  | some function =>
      refine callFresh ?_ all session accounts
      unfold Session.function? at found
      split at found
      · cases found
      split at found
      · rename_i bound
        cases found
        exact accounts.getLocal? bound
      · cases found

end Tracks

/-! ## Whole sessions -/

theorem stored_bindConstants {store : Store} {env : Env} {constants : List (String × Value)}
    (stored : ∀ id name binding, (store.scope id).find? name = some binding → HasCounts counts binding.value)
    (all : ∀ constant ∈ constants, HasCounts counts constant.2) :
    ∀ id name binding, ((Session.bindConstants store env constants).scope id).find? name = some binding →
      HasCounts counts binding.value := by
  induction constants generalizing store with
  | nil => exact stored
  | cons constant constants ih =>
      obtain ⟨here, others⟩ := List.forall_mem_cons.mp all
      refine ih (fun id name binding found => ?_) others
      rcases found_bind found with rfl | before
      · exact here
      · exact stored id name binding before

theorem stored_openConstants {store : Store} {constants : List (String × Value)}
    (stored : ∀ id name binding, (store.scope id).find? name = some binding → HasCounts counts binding.value)
    (all : ∀ constant ∈ constants, HasCounts counts constant.2) :
    ∀ id name binding, ((Session.openConstants store constants).2.scope id).find? name = some binding →
      HasCounts counts binding.value := by
  refine stored_bindConstants (fun id name binding found => ?_) all
  have found : ((store.child []).2.scope id).find? name = some binding := found
  rw [Store.scope_child] at found
  exact stored id name binding found

theorem accounts_start (counts : Counts) (fuel : Nat) (settings : Settings) (output : Output) :
    Accounts counts (Session.start fuel settings output).machine where
  stored := by
    refine stored_openConstants (stored_openConstants (fun id name binding found => ?_) ?_) ?_
    · cases found
    · intro constant member
      simp only [Session.predeclared, List.mem_cons, List.not_mem_nil, or_false] at member
      rcases member with rfl | rfl | rfl <;> rintro _ ⟨⟩
    · intro constant member
      obtain ⟨function, _, rfl⟩ := List.mem_map.mp member
      rintro _ ⟨⟩
  past _ _ happened := happened.elim

/-- How many values the checker found that expressions of a program give. -/
def countsOf (packages : List Package) : Counts :=
  fun expr count? => ∃ index, (programOf packages index).table.counts expr count?

theorem counted_factsOf {packages : List Package} {imports interfaces : Interfaces}
    (formed : ∀ package ∈ packages, FormedPackage package)
    (checked : checkAll imports packages = .ok interfaces)
    (kept : ∀ facts ∈ factsOf imports packages, facts.table.counts ≤ counts) :
    ∀ package ∈ packages, PackageCounted counts package := by
  induction packages generalizing imports with
  | nil => exact fun _ member => absurd member List.not_mem_nil
  | cons package packages ih =>
      obtain ⟨formedHere, formedRest⟩ := List.forall_mem_cons.mp formed
      obtain ⟨interface, first, rest⟩ := checkAll_cons checked
      obtain ⟨table, ran⟩ := check_ok first
      simp only [factsOf, ran] at kept
      obtain ⟨keptHere, keptRest⟩ := List.forall_mem_cons.mp kept
      exact List.forall_mem_cons.mpr
        ⟨checking_counted formedHere ran keptHere, ih formedRest rest keptRest⟩

theorem Accepted.counted {packages : List Package} (accepted : Accepted packages) :
    ∀ package ∈ packages, PackageCounted (countsOf packages) package := by
  obtain ⟨files, root, workspace, after, filled, prepared⟩ := accepted
  obtain ⟨formed, interfaces, checked⟩ := filled.prepare_ok prepared
  refine counted_factsOf formed checked fun facts member expr count? known => ?_
  obtain ⟨index, found⟩ := List.getElem?_of_mem member
  refine ⟨index, ?_⟩
  rw [programOf, found, Option.getD_some]
  exact known

theorem tracked_loadPackages {packages : List Package} (accepted : Accepted packages) (fuel : Nat)
    (settings : Settings) (output : Output) (entry : String) :
    Tracked (countsOf packages) (fun _ => True) (loadPackages fuel settings output entry packages) :=
  have sets : Tracks (countsOf packages) (Session.setEntryPackage entry) (fun _ => True) :=
    Tracks.modify fun _ => rfl
  ((Tracks.loadAll accepted.counted).bind fun _ _ => sets)
    (Session.start fuel settings output) (accounts_start _ fuel settings output)

theorem hasCounts_of_given {given args : List Value} (has : AllHaveCounts counts given)
    (all : ∀ arg ∈ args, Given given arg) : AllHaveCounts counts args := by
  intro arg member
  rcases all arg member with plain | before
  · exact fun closure same => absurd same (plain closure)
  · exact has arg before

/-- A session of an accepted program keeps accounts, and so do the values that it gave. -/
theorem Reached.accounts {fuel : Nat} {settings : Settings} {output : Output} {entry : String}
    {packages : List Package} {given : List Value} (accepted : Accepted packages)
    (reached : Reached fuel settings output entry packages session given) :
    Accounts (countsOf packages) session.machine ∧ AllHaveCounts (countsOf packages) given := by
  have start := tracked_loadPackages accepted fuel settings output entry
  have none : AllHaveCounts (countsOf packages) [] := fun value member => absurd member List.not_mem_nil
  induction reached with
  | loaded ran =>
      rw [ran] at start
      exact ⟨start.1, none⟩
  | halted ran =>
      rw [ran] at start
      exact ⟨start.1, none⟩
  | @returned session next given path name args results _ all ran ih =>
      have step := Tracks.invoke path name (hasCounts_of_given ih.2 all) session ih.1
      rw [ran] at step
      exact ⟨step.1, List.forall_mem_append.mpr ⟨ih.2, step.2⟩⟩
  | @failed session next given path name args error _ all ran ih =>
      have step := Tracks.invoke path name (hasCounts_of_given ih.2 all) session ih.1
      rw [ran] at step
      exact ⟨step.1, ih.2⟩
  | printed _ ran ih =>
      obtain ⟨_, rfl⟩ := EStateM.Result.ok.inj ran
      exact ⟨⟨ih.1.stored, ih.1.past⟩, ih.2⟩
  | redirected path _ ran ih =>
      obtain ⟨_, rfl⟩ := EStateM.Result.ok.inj ran
      exact ih

namespace Reassigned

/-- A variable that holds a function is assigned a function with more results. -/
def source : String :=
  "package main\nfunc Main() int \x7b\n\tf := func() int \x7b return 1 \x7d\n\tf = func() (int, int) \x7b return 1, 2 \x7d\n\tx := f()\n\treturn x\n\x7d\n"

def call : Expr := .call (.identifier "f" ⟨5, 7⟩) [] ⟨5, 8⟩

/-- What `source` is read as. -/
def package : Package := ⟨"main", "main", [⟨"main.go", ⟨"main", [], [
  .function "Main" ⟨⟨[], [.int], []⟩, [
    .define ["f"] [.function ⟨⟨[], [.int], []⟩, [.return [.integer 1] ⟨3, 20⟩], ⟨3, 7⟩⟩] ⟨3, 2⟩,
    .assign ["f"] [.function ⟨⟨[], [.int, .int], []⟩, [.return [.integer 1, .integer 2] ⟨4, 26⟩], ⟨4, 6⟩⟩] ⟨4, 2⟩,
    .define ["x"] [call] ⟨5, 2⟩,
    .return [.identifier "x" ⟨6, 9⟩] ⟨6, 2⟩], ⟨2, 1⟩⟩]⟩⟩]⟩

/-- The session that `package` is loaded into. -/
@[irreducible] def loaded : Session := behind (loadPackages 100 .default .empty "main" [package])

/-- The session behind a call of `Main`. -/
@[irreducible] def stopped : Session := behind (Session.invoke "main" "Main" [] loaded)

theorem started : loadPackages 100 .default .empty "main" [package] = .ok () loaded := by
  unfold loaded
  exact ok_of_value? (by decide +kernel)

theorem ran : Session.invoke "main" "Main" [] loaded
    = .error (.runtime (.assignmentCount 1 2 ⟨5, 2⟩)) stopped := by
  unfold stopped loaded package call
  cbv

theorem gave : ∃ function, stopped.machine.past stopped.machine.store
    (.called call function [.int 1, .int 2]) := by
  refine ⟨.function ⟨2, "Main.func", ⟨⟨[], [.int, .int], []⟩,
    [.return [.integer 1, .integer 2] ⟨4, 26⟩], ⟨4, 6⟩⟩, [4, 3, 2, 0]⟩, ?_⟩
  unfold stopped loaded package call
  cbv
  exact Or.inr rfl

theorem counted : countsOf [package] call (some 1) := by
  refine ⟨0, ?_⟩
  unfold package call
  cbv
  exact Or.inl (Or.inr trivial)

theorem accepted : Accepted [package] := by
  refine ⟨.empty, "main", _, ⟨none, [package]⟩, .source "main" "main.go" source (.empty none), ?_⟩
  unfold source package call
  cbv

end Reassigned

end MiniGo.Running
