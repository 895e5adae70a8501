import MiniGo.Proofs.Running.Arity
import MiniGo.Proofs.Running.Tidying

/-!
# Sessions are tidy

The machine of a session is tidy in every state that a session of an accepted program comes to: the scopes that
its functions and packages lead to are there.
-/

namespace MiniGo.Running

open Syntax Lexical

/-- The machine of a session is tidy, and the scopes of its packages are there. -/
structure TidySession (session : Session) : Prop where
  machine : Tidy session.machine
  packages : ∀ entry ∈ session.packages, entry.2.scope < session.machine.store.scopes.size
  outermost : Within session.machine.store.scopes.size session.outermost

/-- How a step of a session ends that keeps it tidy. -/
def Lasted (size : Nat) (post : Nat → α → Prop) : EStateM.Result Error Session α → Prop
  | .ok value next => TidySession next ∧ size ≤ next.machine.store.scopes.size ∧
      post next.machine.store.scopes.size value
  | .error _ next => TidySession next ∧ size ≤ next.machine.store.scopes.size

/-- A step keeps tidy sessions tidy, and `post` holds of its result. -/
def Lasts (size : Nat) (run : Run α) (post : Nat → α → Prop) : Prop :=
  ∀ session, TidySession session → size ≤ session.machine.store.scopes.size → Lasted size post (run session)

namespace Lasts

variable {size : Nat} {middle : Nat → α → Prop} {post : Nat → α → Prop} {last : Nat → β → Prop}

theorem pure {value : α} (holds : ∀ larger, size ≤ larger → post larger value) : Lasts size (Pure.pure value) post :=
  fun _ tidy le => ⟨tidy, le, holds _ le⟩

theorem bind {run : Run α} {next : α → Run β} (first : Lasts size run middle)
    (rest : ∀ larger value, size ≤ larger → middle larger value → Lasts larger (next value) last) :
    Lasts size (run >>= next) last := by
  intro session tidy le
  have ran := first session tidy le
  rw [run_bind]
  cases outcome : run session with
  | error error after =>
      rw [outcome] at ran
      exact ran
  | ok value after =>
      rw [outcome] at ran
      obtain ⟨tidyAfter, more, holds⟩ := ran
      have behind := rest _ value more holds after tidyAfter (Nat.le_refl _)
      dsimp only
      cases result : next value after with
      | error error final =>
          rw [result] at behind
          exact ⟨behind.1, more.trans behind.2⟩
      | ok value final =>
          rw [result] at behind
          exact ⟨behind.1, more.trans behind.2.1, behind.2.2⟩

theorem get : Lasts size (MonadState.get : Run Session) (fun larger session =>
    TidySession session ∧ session.machine.store.scopes.size = larger) :=
  fun _ tidy le => ⟨tidy, le, tidy, rfl⟩

theorem throw {error : Error} : Lasts size (MonadExcept.throw error : Run α) post := fun _ tidy le => ⟨tidy, le⟩

theorem perform {place : Error → Error} {action : Eval α} (tidies : Tidies size 0 action post) :
    Lasts size (Session.perform place action) post := by
  intro session tidy le
  have ran := tidies session.machine tidy.machine le (Nat.zero_le _)
  have grown : ∀ {next : Machine}, Retains 0 session.machine.store next.store → Tidy next →
      TidySession { session with machine := next } := fun retains machine =>
    ⟨machine, fun entry member => Nat.lt_of_lt_of_le (tidy.packages entry member) retains.size,
      tidy.outermost.mono retains.size⟩
  unfold Session.perform
  cases outcome : action session.machine with
  | error halt next =>
      rw [outcome] at ran
      exact ⟨grown ran.2 ran.1, le.trans ran.2.size⟩
  | ok value next =>
      rw [outcome] at ran
      exact ⟨grown ran.2.1 ran.1, le.trans ran.2.1.size, ran.2.2⟩

/-! ## Loading -/

theorem above_zero (env : Env) : Above 0 env := fun _ _ => Nat.zero_le _

theorem bindImports {file : SourceFile} {env : Env} {imports : List Import} :
    Lasts size (Session.bindImports file env imports) Anything := by
  induction imports generalizing size with
  | nil => exact pure fun _ _ => trivial
  | cons found imports ih =>
      unfold Session.bindImports
      refine get.bind fun larger session _ entered => ?_
      obtain ⟨tidy, same⟩ := entered
      split
      · exact (@throw PUnit _ Anything _).bind fun _ _ _ _ => ih
      · rename_i ref known
        obtain ⟨front, back, split, _⟩ := List.lookup_eq_some_iff.mp known
        have old : ref.scope < larger := same ▸ tidy.packages (found.path, ref) (by simp [split])
        have housed : Housed larger (.package ref) := ⟨nofun, by rintro _ ⟨⟩; exact old⟩
        exact (perform (Tidies.bindTyped (above_zero env) housed)).bind fun _ _ _ _ => ih

theorem openFiles {env : Env} {files : List SourceFile} (within : Within size env) :
    Lasts size (Session.openFiles env files) (fun larger inner => ∀ env ∈ inner, Within larger env) := by
  induction files generalizing size with
  | nil => exact pure fun _ _ env member => absurd member List.not_mem_nil
  | cons file files ih =>
      refine (perform (.openScope within)).bind fun _ inner one ⟨inside, _⟩ => bindImports.bind fun _ _ two _ =>
        (ih (within.mono (one.trans two))).bind fun _ others three all => pure fun _ four => ?_
      exact List.forall_mem_cons.mpr
        ⟨inside.mono (two.trans (three.trans four)), fun env member => (all env member).mono four⟩

theorem bindFunctions {env inner : Env} {functions : List (String × FunctionLiteral)} (within : Within size inner)
    (formed : ∀ function ∈ functions, Formed.function function.2) :
    Lasts size (Session.bindFunctions env inner functions) Anything := by
  induction functions generalizing size with
  | nil => exact pure fun _ _ => trivial
  | cons function functions ih =>
      obtain ⟨here, others⟩ := List.forall_mem_cons.mp formed
      exact (perform (.makeClosure within here)).bind fun _ _ one housed =>
        (perform (Tidies.bindTyped (above_zero env) housed)).bind fun _ _ two _ => ih (within.mono (one.trans two)) others

theorem bindFiles {env : Env} {pairs : List (SourceFile × Env)} (within : ∀ pair ∈ pairs, Within size pair.2)
    (formed : ∀ pair ∈ pairs, ∀ function ∈ pair.1.program.functions, Formed.function function.2) :
    Lasts size (Session.bindFiles env pairs) Anything := by
  induction pairs generalizing size with
  | nil => exact pure fun _ _ => trivial
  | cons pair pairs ih =>
      obtain ⟨here, others⟩ := List.forall_mem_cons.mp within
      obtain ⟨formedHere, formedOthers⟩ := List.forall_mem_cons.mp formed
      exact (bindFunctions here formedHere).bind fun _ _ more _ =>
        ih (fun pair member => (others pair member).mono more) formedOthers

theorem runInitializers {package : Package} {env : Env} {inner : List Env} {items : List Initializer}
    (within : Within size env) (all : ∀ env ∈ inner, Within size env)
    (formed : ∀ item ∈ items, Formed.exprs item.decl.values) :
    Lasts size (Session.runInitializers package env inner items) Anything := by
  induction items generalizing size with
  | nil => exact pure fun _ _ => trivial
  | cons item items ih =>
      obtain ⟨here, others⟩ := List.forall_mem_cons.mp formed
      have inside : Within size ((inner[item.file]?).getD env) := by
        cases found : inner[item.file]? with
        | none => exact within
        | some env => exact all env (List.mem_of_getElem? found)
      refine get.bind fun _ session one _ => ?_
      refine (perform ((tidying _ _).declare (inside.mono one) (above_zero env) here)).bind fun _ _ two _ => ?_
      exact ih (within.mono (one.trans two)) (fun env member => (all env member).mono (one.trans two)) others

theorem bindPackage {package : Package} (formed : FormedPackage package) :
    Lasts size (Session.bindPackage package) (fun larger env => Within larger env ∧ env ≠ []) := by
  unfold Session.bindPackage
  refine get.bind fun _ session _ ⟨tidy, same⟩ => (perform (.openScope (same ▸ tidy.outermost))).bind
    fun _ env one ⟨within, _, some_⟩ => (openFiles within).bind fun _ inner two all => ?_
  refine (bindFiles (fun pair member => all pair.2 (List.of_mem_zip member).2)
    fun pair member => formed.functions (List.of_mem_zip member).1).bind fun _ _ three _ => ?_
  -- The scope of the package is there in every store that grows from the one it was opened in.
  have ends : ∀ larger, Within larger env → Lasts larger (Pure.pure env : Run Env)
      (fun larger env => Within larger env ∧ env ≠ []) := fun _ within => pure fun _ more => ⟨within.mono more, some_⟩
  cases inOrder : initializationOrder package with
  | error error =>
      exact (@throw PUnit _ Anything _).bind fun _ _ four _ =>
        ends _ (within.mono (two.trans (three.trans four)))
  | ok order =>
      obtain ⟨indices, rfl, _⟩ := Initialization.initializationOrder_ok inOrder
      have formedItems : ∀ item ∈ indices.filterMap ((Initialization.initializers package)[·]?),
          Formed.exprs item.decl.values := by
        intro item member
        obtain ⟨index, _, found⟩ := List.mem_filterMap.mp member
        exact formed.initializers item (List.mem_of_getElem? found)
      exact (runInitializers (within.mono (two.trans three)) (fun env member => (all env member).mono three)
        formedItems).bind fun _ _ four _ => ends _ (within.mono (two.trans (three.trans four)))

theorem load {package : Package} (formed : FormedPackage package) :
    Lasts size (Session.load package) Anything := by
  refine (bindPackage formed).bind fun larger env _ ⟨within, some_⟩ session tidy le => ?_
  obtain ⟨first, outer, rfl⟩ := List.exists_cons_of_ne_nil some_
  refine ⟨⟨tidy.machine, ?_, tidy.outermost⟩, le, trivial⟩
  exact List.forall_mem_cons.mpr ⟨Nat.lt_of_lt_of_le (within first List.mem_cons_self) le, tidy.packages⟩

theorem loadAll {packages : List Package} (formed : ∀ package ∈ packages, FormedPackage package) :
    Lasts size (Session.loadAll packages) Anything := by
  induction packages generalizing size with
  | nil => exact pure fun _ _ => trivial
  | cons package packages ih =>
      obtain ⟨here, others⟩ := List.forall_mem_cons.mp formed
      exact (load here).bind fun _ _ _ _ => ih others

/-! ## Calls -/

theorem callFresh (session : Session) {function : Value} {args : List Value} (rooted : Rooted size function)
    (all : ∀ arg ∈ args, Rooted size arg) :
    Lasts size (Session.perform (fun error => error) (Running.callFresh session function args)) AllHoused := by
  refine perform fun machine tidy le old => ?_
  exact (tidying _ _).apply rooted all { machine with calls := .empty } ⟨tidy.store, tidy.past⟩ le old

theorem invoke (path name : String) {args : List Value} (all : ∀ arg ∈ args, Rooted size arg) :
    Lasts size (Session.invoke path name args) AllHoused := by
  intro session tidy le
  rw [invoke_run]
  cases found : session.function? path name with
  | none => exact ⟨tidy, le⟩
  | some function =>
      -- A function that is found by its name is bound in a scope that is there.
      have rooted : Rooted session.machine.store.scopes.size function := by
        unfold Session.function? at found
        split at found
        · cases found
        split at found
        · rename_i bound
          cases found
          exact (tidy.machine.store.getLocal? bound).1
        · cases found
      have ran := callFresh session rooted (fun arg member => (all arg member).mono le) session tidy
        (Nat.le_refl _)
      dsimp only
      cases outcome : Session.perform (fun error => error) (Running.callFresh session function args) session with
      | error error next =>
          rw [outcome] at ran
          exact ⟨ran.1, le.trans ran.2⟩
      | ok results next =>
          rw [outcome] at ran
          exact ⟨ran.1, le.trans ran.2.1, ran.2.2⟩

end Lasts

/-! ## Whole sessions -/

theorem tidyStore_bindConstants {store : Store} {env : Env} {constants : List (String × Value)} (tidy : TidyStore store)
    (scalar : ∀ constant ∈ constants, ∀ size, Housed size constant.2) :
    TidyStore (Session.bindConstants store env constants) := by
  induction constants generalizing store with
  | nil => exact tidy
  | cons constant constants ih =>
      obtain ⟨here, others⟩ := List.forall_mem_cons.mp scalar
      exact ih (tidy.bind env constant.1 (here _)) others

theorem size_bindConstants (store : Store) (env : Env) (constants : List (String × Value)) :
    (Session.bindConstants store env constants).scopes.size = store.scopes.size := by
  induction constants generalizing store with
  | nil => rfl
  | cons constant constants ih =>
      exact (ih _).trans (store.size_bind env constant.1 _)

theorem tidyStore_openConstants {store : Store} (constants : List (String × Value)) (tidy : TidyStore store)
    (scalar : ∀ constant ∈ constants, ∀ size, Housed size constant.2) :
    TidyStore (Session.openConstants store constants).2 ∧
    (Session.openConstants store constants).1 = [store.scopes.size] ∧
    (Session.openConstants store constants).2.scopes.size = store.scopes.size + 1 :=
  ⟨tidyStore_bindConstants (tidy.child []) scalar, rfl, (size_bindConstants _ _ _).trans (store.size_child [])⟩

theorem tidy_start (fuel : Nat) (settings : Settings) (output : Output) :
    TidySession (Session.start fuel settings output) := by
  have empty : TidyStore Store.empty := fun id entry member => absurd member List.not_mem_nil
  obtain ⟨tidyFirst, envFirst, sizeFirst⟩ := tidyStore_openConstants Session.predeclared empty
    fun constant member size => by
      simp only [Session.predeclared, List.mem_cons, List.not_mem_nil, or_false] at member
      rcases member with rfl | rfl | rfl
      · exact housed_of_scalar rfl
      · exact housed_of_scalar rfl
      · exact housed_builtin .len
  obtain ⟨tidySecond, _, sizeSecond⟩ := tidyStore_openConstants Session.formatting tidyFirst
    fun constant member size => by
      obtain ⟨function, _, rfl⟩ := List.mem_map.mp member
      exact housed_builtin function
  have grown : (Session.start fuel settings output).machine.store.scopes.size
      = (Session.openConstants Store.empty Session.predeclared).2.scopes.size + 1 := sizeSecond
  refine ⟨⟨tidySecond, fun _ _ happened => happened.elim⟩, fun entry member => ?_, ?_⟩
  · obtain rfl := List.mem_singleton.mp member
    rw [grown]
    exact Nat.lt_succ_self _
  · rw [grown]
    change Within _ (Session.openConstants Store.empty Session.predeclared).1
    rw [envFirst, sizeFirst]
    intro id member
    obtain rfl := List.mem_singleton.mp member
    exact Nat.lt_succ_of_lt (Nat.lt_succ_self _)

theorem lasted_loadPackages {packages : List Package} (accepted : Accepted packages) (fuel : Nat)
    (settings : Settings) (output : Output) (entry : String) :
    Lasted 0 Anything (loadPackages fuel settings output entry packages) := by
  obtain ⟨files, root, workspace, after, filled, prepared⟩ := accepted
  obtain ⟨formed, _⟩ := filled.prepare_ok prepared
  have sets : ∀ size, Lasts size (Session.setEntryPackage entry) Anything :=
    fun _ session tidy le => ⟨⟨tidy.machine, tidy.packages, tidy.outermost⟩, le, trivial⟩
  exact ((Lasts.loadAll formed).bind fun _ _ _ _ => sets _) (Session.start fuel settings output)
    (tidy_start fuel settings output) (Nat.zero_le _)

theorem rooted_of_given {size : Nat} {given args : List Value} (rooted : ∀ value ∈ given, Rooted size value)
    (all : ∀ arg ∈ args, Given given arg) : ∀ arg ∈ args, Rooted size arg := by
  intro arg member
  rcases all arg member with plain | before
  · exact fun closure same => absurd same (plain closure)
  · exact rooted arg before

/-- A session of an accepted program is tidy, and the functions that it gave lead to scopes that are there. -/
theorem Reached.tidy {fuel : Nat} {settings : Settings} {output : Output} {entry : String} {session : Session}
    {packages : List Package} {given : List Value} (accepted : Accepted packages)
    (reached : Reached fuel settings output entry packages session given) :
    TidySession session ∧ ∀ value ∈ given, Rooted session.machine.store.scopes.size value := by
  have start := lasted_loadPackages accepted fuel settings output entry
  induction reached with
  | loaded ran =>
      rw [ran] at start
      exact ⟨start.1, fun value member => absurd member List.not_mem_nil⟩
  | halted ran =>
      rw [ran] at start
      exact ⟨start.1, fun value member => absurd member List.not_mem_nil⟩
  | @returned session next given path name args results _ all ran ih =>
      have step := Lasts.invoke path name (rooted_of_given ih.2 all) session ih.1 (Nat.le_refl _)
      rw [ran] at step
      obtain ⟨tidy, more, housed⟩ := step
      exact ⟨tidy, List.forall_mem_append.mpr
        ⟨fun value member => (ih.2 value member).mono more, fun value member => (housed value member).1⟩⟩
  | @failed session next given path name args error _ all ran ih =>
      have step := Lasts.invoke path name (rooted_of_given ih.2 all) session ih.1 (Nat.le_refl _)
      rw [ran] at step
      exact ⟨step.1, fun value member => (ih.2 value member).mono step.2⟩
  | printed _ ran ih =>
      obtain ⟨_, rfl⟩ := EStateM.Result.ok.inj ran
      exact ⟨⟨⟨ih.1.machine.store, ih.1.machine.past⟩, ih.1.packages, ih.1.outermost⟩, ih.2⟩
  | redirected path _ ran ih =>
      obtain ⟨_, rfl⟩ := EStateM.Result.ok.inj ran
      exact ⟨⟨ih.1.machine, ih.1.packages, ih.1.outermost⟩, ih.2⟩

theorem Reached.tidyStore {fuel : Nat} {settings : Settings} {output : Output} {entry : String} {session : Session}
    {packages : List Package} {given : List Value} {store : Store}
    (reached : Reached fuel settings output entry packages session given) (accepted : Accepted packages)
    (seen : Seen session store) : TidyStore store := by
  obtain ⟨tidy, _⟩ := reached.tidy accepted
  rcases seen with rfl | ⟨event, happened⟩
  · exact tidy.machine.store
  · exact tidy.machine.past _ event happened

end MiniGo.Running
