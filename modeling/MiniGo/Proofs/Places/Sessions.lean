import MiniGo.Proofs.Places.Packages
import MiniGo.Proofs.Places.Running
import MiniGo.Proofs.Running.Depth

/-!
# Programs that run without places

Loading packages without their places and calling their functions does what the same steps do with places
(`loadPackages_packages`, `serve_paired`): what a caller sees depends on places only where errors and functions carry
them.
-/

namespace MiniGo.Placeless

open Running (Answer Call Caller Transcript drain serve)
open Syntax

variable {α β γ δ : Type} {fuel : Nat} {settings : Settings} {output : Output} {session other : Session}

/-! ## Steps -/

/-- A session in the state of another, without places. -/
structure Paired (session other : Session) : Prop where
  settings : other.settings = session.settings
  fuel : other.fuel = session.fuel
  packages : other.packages = session.packages
  entryPackage : other.entryPackage = session.entryPackage
  outermost : other.outermost = session.outermost
  machine : Mirrored session.machine other.machine

/-- Two steps of sessions ended in the same way, up to places. -/
def Settled (erase : α → β) : EStateM.Result Error Session α → EStateM.Result Error Session β → Prop
  | .ok found after, .ok result later => result = erase found ∧ Paired after later
  | .error found after, .error result later => result = error found ∧ Paired after later
  | _, _ => False

/-- On a session without places, a step does what another does on the session. -/
def Tracks (erase : α → β) (run : Run α) (mirror : Run β) : Prop :=
  ∀ session other, Paired session other → Settled erase (run session) (mirror other)

theorem Settled.of_ok {erase : α → β} {found : α} {after : Session} {mirrored : EStateM.Result Error Session β}
    (settled : Settled erase (.ok found after) mirrored) :
    ∃ later, mirrored = .ok (erase found) later ∧ Paired after later := by
  cases mirrored with
  | ok other later =>
      obtain ⟨rfl, paired⟩ := settled
      exact ⟨later, rfl, paired⟩
  | error => exact settled.elim

theorem Settled.of_error {erase : α → β} {found : Error} {after : Session} {mirrored : EStateM.Result Error Session β}
    (settled : Settled erase (.error found after) mirrored) :
    ∃ later, mirrored = .error (error found) later ∧ Paired after later := by
  cases mirrored with
  | ok => exact settled.elim
  | error other later =>
      obtain ⟨rfl, paired⟩ := settled
      exact ⟨later, rfl, paired⟩

theorem toError_halt (found : Halt) : (halt found).toError = error found.toError := by
  cases found <;> rfl

namespace Tracks

variable {erase : α → β} {last : γ → δ}

theorem pure {found : α} : Tracks erase (Pure.pure found) (Pure.pure (erase found)) := fun _ _ paired => ⟨rfl, paired⟩

theorem throw {found : Error} :
    Tracks id (MonadExcept.throw found : Run α) (MonadExcept.throw (error found)) := fun _ _ paired => ⟨rfl, paired⟩

theorem bind {run : Run α} {mirror : Run β} {next : α → Run γ} {behind : β → Run δ} (first : Tracks erase run mirror)
    (rest : ∀ found, Tracks last (next found) (behind (erase found))) :
    Tracks last (run >>= next) (mirror >>= behind) := by
  intro session other paired
  have ended := first session other paired
  rw [Running.run_bind, Running.run_bind]
  cases ran : run session with
  | ok found after =>
      rw [ran] at ended
      obtain ⟨later, mirrored, paired⟩ := ended.of_ok
      rw [mirrored]
      exact rest found after later paired
  | error found after =>
      rw [ran] at ended
      obtain ⟨later, mirrored, paired⟩ := ended.of_error
      rw [mirrored]
      exact ⟨rfl, paired⟩

theorem get {next : Session → Run α} {behind : Session → Run β}
    (rest : ∀ session other, Paired session other → Tracks erase (next session) (behind other)) :
    Tracks erase (MonadState.get >>= next) (MonadState.get >>= behind) :=
  fun session other paired => rest session other paired session other paired

theorem perform {place : Error → Error} {action : Eval α} {mirror : Eval β}
    (kept : ∀ found, place (error found) = error (place found)) (mirrors : Mirrors erase action mirror) :
    Tracks erase (Session.perform place action) (Session.perform place mirror) := by
  intro session other paired
  have ended := mirrors session.machine other.machine paired.machine
  unfold Session.perform
  cases ran : action session.machine with
  | ok found after =>
      rw [ran] at ended
      obtain ⟨later, mirrored, same⟩ := ended.of_ok
      rw [mirrored]
      exact ⟨rfl, { paired with machine := same }⟩
  | error found after =>
      rw [ran] at ended
      obtain ⟨later, mirrored, same⟩ := ended.of_error
      rw [mirrored]
      refine ⟨?_, { paired with machine := same }⟩
      rw [toError_halt, kept]

theorem performHere {action : Eval α} {mirror : Eval β} (mirrors : Mirrors erase action mirror) :
    Tracks erase (Session.perform id action) (Session.perform id mirror) := perform (fun _ => rfl) mirrors

theorem performIn {path : String} {action : Eval α} {mirror : Eval β} (mirrors : Mirrors erase action mirror) :
    Tracks erase (Session.perform (.inFile path) action) (Session.perform (.inFile path) mirror) :=
  perform (fun _ => rfl) mirrors

/-! ## Loading -/

theorem bindImports {file : SourceFile} {env : Env} {imports : List Import} :
    Tracks id (Session.bindImports file env imports)
      (Session.bindImports (sourceFile file) env (imports.map Unplaced.importSpec)) := by
  induction imports with
  | nil => exact pure
  | cons first rest ih =>
      refine get fun session other paired => ?_
      rw [paired.packages]
      dsimp only [Unplaced.importSpec]
      cases session.packages.lookup first.path with
      | none => exact throw.bind fun _ => ih
      | some found => exact (performHere .bindName).bind fun _ => ih

theorem openFiles {env : Env} {files : List SourceFile} :
    Tracks id (Session.openFiles env files) (Session.openFiles env (files.map sourceFile)) := by
  induction files with
  | nil => exact pure
  | cons file files ih =>
      exact (performHere .openScope).bind fun _ => bindImports.bind fun _ => ih.bind fun _ => pure

theorem bindFunctions {env inner : Env} {functions : List (String × FunctionLiteral)} :
    Tracks id (Session.bindFunctions env inner functions)
      (Session.bindFunctions env inner (functions.map function)) := by
  induction functions with
  | nil => exact pure
  | cons first rest ih =>
      exact (performHere .makeClosure).bind fun _ => (performHere .bindName).bind fun _ => ih

theorem bindFiles {env : Env} {pairs : List (SourceFile × Env)} :
    Tracks id (Session.bindFiles env pairs)
      (Session.bindFiles env (pairs.map fun pair => (sourceFile pair.1, pair.2))) := by
  induction pairs with
  | nil => exact pure
  | cons pair pairs ih =>
      obtain ⟨file, inner⟩ := pair
      have functions : Tracks id (Session.bindFunctions env inner file.program.functions)
          (Session.bindFunctions env inner (unplaced file.program).functions) := by
        rw [functions_unplaced]
        exact bindFunctions
      exact functions.bind fun _ => ih

theorem runInitializers {found : Package} {env : Env} {inner : List Env} {items : List Initializer} :
    Tracks id (Session.runInitializers found env inner items)
      (Session.runInitializers (package found) env inner (items.map initializer)) := by
  induction items with
  | nil => exact pure
  | cons item items ih =>
      refine get fun session other paired => ?_
      rw [paired.settings, paired.fuel, filePath_package]
      exact (performIn (mirroring _ _).declare).bind fun _ => ih

theorem bindPackage {found : Package} :
    Tracks id (Session.bindPackage found) (Session.bindPackage (package found)) := by
  refine get fun session other paired => ?_
  rw [paired.outermost]
  refine (performHere .openScope).bind fun env => openFiles.bind fun inner => ?_
  have files : (package found).files.zip inner = (found.files.zip inner).map fun pair => (sourceFile pair.1, pair.2) :=
    List.zip_map_left ..
  dsimp only [id]
  rw [files, initializationOrder_package]
  refine bindFiles.bind fun _ => ?_
  cases initializationOrder found with
  | error failure => exact throw.bind fun _ => pure
  | ok order => exact runInitializers.bind fun _ => pure

theorem loadAll {packages : List Package} :
    Tracks id (Session.loadAll packages) (Session.loadAll (packages.map package)) := by
  induction packages with
  | nil => exact pure
  | cons first rest ih =>
      have load : Tracks id (Session.load first) (Session.load (package first)) :=
        bindPackage.bind fun env session other paired =>
          ⟨rfl, { paired with
            packages := congrArg ((first.path, Session.refer first.name first.path env) :: ·) paired.packages }⟩
      exact load.bind fun _ => ih

/-! ## Calls -/

theorem invoke {path name : String} {args : List Value} :
    Tracks (List.map value) (Session.invoke path name args) (Session.invoke path name (args.map value)) := by
  intro session other paired
  have meant : other.function? path name = (session.function? path name).map value := by
    unfold Session.function?
    rw [paired.packages, paired.machine.store]
    cases session.packages.lookup path with
    | none => rfl
    | some found =>
        dsimp only
        rw [getLocal?_store]
        cases session.machine.store.getLocal? [found.scope] name with
        | none => rfl
        | some found => cases found <;> rfl
  rw [Running.invoke_run, Running.invoke_run, meant]
  cases session.function? path name with
  | none => exact ⟨rfl, paired⟩
  | some function =>
      refine performHere (fun machine later same => ?_) session other paired
      unfold Running.callFresh
      rw [paired.settings, paired.fuel]
      exact (mirroring _ _).apply _ _ ⟨same.store, rfl, same.output, same.closures⟩

end Tracks

theorem bindConstants_store {constants : List (String × Value)}
    (plain : ∀ constant ∈ constants, value constant.2 = constant.2) (found : Store) (env : Env) :
    Session.bindConstants (store found) env constants = store (Session.bindConstants found env constants) := by
  unfold Session.bindConstants
  induction constants generalizing found with
  | nil => rfl
  | cons first rest ih =>
      obtain ⟨name, constant⟩ := first
      have bound : (store found).bind env name ⟨constant, false⟩ = store (found.bind env name ⟨constant, false⟩) := by
        rw [← bind_store, binding, plain (name, constant) List.mem_cons_self]
      rw [List.foldl_cons, List.foldl_cons]
      dsimp only
      rw [bound]
      exact ih (fun constant member => plain constant (List.mem_cons_of_mem _ member)) _

theorem openConstants_store {constants : List (String × Value)}
    (plain : ∀ constant ∈ constants, value constant.2 = constant.2) (found : Store) :
    Session.openConstants (store found) constants
      = ((Session.openConstants found constants).1, store (Session.openConstants found constants).2) := by
  unfold Session.openConstants
  rw [child_store]
  exact congrArg (Prod.mk _) (bindConstants_store plain _ _)

theorem plain_predeclared : ∀ constant ∈ Session.predeclared, value constant.2 = constant.2 := by
  simp [Session.predeclared, value]

theorem plain_formatting : ∀ constant ∈ Session.formatting, value constant.2 = constant.2 := by
  simp [Session.formatting, value]

theorem start_paired (fuel : Nat) (settings : Settings) (output : Output) :
    Paired (Session.start fuel settings output) (Session.start fuel settings output) := by
  have empty : store Store.empty = Store.empty := by
    unfold store Store.empty
    rw [Array.map_empty]
  have first := congrArg Prod.snd (openConstants_store plain_predeclared Store.empty)
  rw [empty] at first
  dsimp only at first
  have second := openConstants_store plain_formatting (Session.openConstants Store.empty Session.predeclared).2
  rw [← first] at second
  exact ⟨rfl, rfl, rfl, rfl, rfl, congrArg Prod.snd second, rfl, rfl, rfl⟩

theorem loadPackages_packages (fuel : Nat) (settings : Settings) (output : Output) (entry : String)
    (packages : List Package) :
    Settled id (loadPackages fuel settings output entry packages)
      (loadPackages fuel settings output entry (packages.map package)) := by
  have loads : Tracks id (do Session.loadAll packages; Session.setEntryPackage entry)
      (do Session.loadAll (packages.map package); Session.setEntryPackage entry) :=
    Tracks.loadAll.bind fun _ session other paired => ⟨rfl, { paired with entryPackage := rfl }⟩
  exact loads _ _ (start_paired fuel settings output)

/-! ## Callers -/

/-- A call from outside, without places in its arguments. -/
def call (found : Call) : Call := { found with args := found.args.map value }

/-- What comes of a call, without places. -/
def results : Except Error (List Value) → Except Error (List Value)
  | .ok found => .ok (found.map value)
  | .error found => .error (error found)

/-- An answer without places. -/
def answer (found : Answer) : Answer := ⟨results found.outcome, found.printed⟩

/-- What a caller sees of a program, without places. -/
def transcript (found : Transcript) : Transcript :=
  ⟨found.failure.map error, found.printed, found.answers.map answer⟩

/-- A caller that does not look at places. -/
def Blind (caller : Caller) : Prop := ∀ next ∈ caller, ∀ answers, call (next (answers.map answer)) = call (next answers)

theorem drain_paired (paired : Paired session other) :
    (drain other).1 = (drain session).1 ∧ Paired (drain session).2 (drain other).2 := by
  unfold drain
  rw [paired.machine.output]
  exact ⟨rfl, { paired with machine := { paired.machine with output := rfl } }⟩

theorem serve_paired (caller : Caller) (blind : Blind caller) (answers : List Answer) (paired : Paired session other) :
    serve (caller.map fun next answers => call (next answers)) (answers.map answer) other
      = (serve caller answers session).map answer := by
  induction caller generalizing answers session other with
  | nil => rfl
  | cons next rest ih =>
      have later : Blind rest := fun next member => blind next (List.mem_cons_of_mem _ member)
      rw [List.map_cons]
      unfold serve
      dsimp only
      rw [blind next List.mem_cons_self answers]
      generalize next answers = asked
      -- Both programs end the call in the same way, so their answers agree and their sessions stay paired.
      have ended : Settled (List.map value) (Session.invoke asked.path asked.name asked.args session)
          (Session.invoke asked.path asked.name (asked.args.map value) other) := Tracks.invoke session other paired
      dsimp only [call]
      -- The answers so far are the same up to places, so the caller goes on in the same way.
      have goesOn : ∀ outcome after behind, Paired after behind →
          serve (rest.map fun next answers => call (next answers))
              (answers.map answer ++ [⟨results outcome, (drain behind).1⟩]) (drain behind).2
            = (serve rest (answers ++ [⟨outcome, (drain after).1⟩]) (drain after).2).map answer := by
        intro outcome after behind paired
        obtain ⟨printed, paired⟩ := drain_paired paired
        have shown : [Answer.mk (results outcome) (drain behind).1]
            = [Answer.mk outcome (drain after).1].map answer := by
          rw [printed]
          rfl
        rw [shown, ← List.map_append]
        exact ih later _ paired
      cases ran : Session.invoke asked.path asked.name asked.args session with
      | ok found after =>
          rw [ran] at ended
          obtain ⟨behind, mirrored, paired⟩ := ended.of_ok
          rw [mirrored]
          exact goesOn (.ok found) after behind paired
      | error found after =>
          rw [ran] at ended
          obtain ⟨behind, mirrored, paired⟩ := ended.of_error
          rw [mirrored]
          exact goesOn (.error found) after behind paired

end MiniGo.Placeless
