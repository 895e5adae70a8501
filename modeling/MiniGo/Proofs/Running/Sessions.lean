import MiniGo.Build
import MiniGo.Proofs.Running.Statements

/-!
# Steps of sessions

`Runs` is the triple of `Keeps` for the steps of a session. A step changes the machine of a session and
nothing else; when it fails, then because the code came to a halt.
-/

namespace MiniGo.Running

open Lexical

/-- An error that says how a run of code ended, and that does not say that a name has no binding. -/
def Stopped (error : Error) : Prop :=
  match error.cause with
  | .runtime (.undefined _ _) => False
  | .runtime _ | .exhausted => True
  | _ => False

theorem stopped_of_excused {halt : Halt} (excused : Excused halt) : Stopped halt.toError := by
  cases halt with
  | exhausted => exact trivial
  | fault error =>
      cases error with
      | undefined => exact excused
      | _ => exact trivial

theorem run_bind (run : Run α) (next : α → Run β) (session : Session) :
    (run >>= next) session = match run session with
      | .ok value after => next value after
      | .error error after => .error error after := by
  simp only [bind, EStateM.bind]
  cases run session <;> rfl

/-- A step keeps the invariant, adds names to the scope `top` only, and has a result of which `post`
holds in the later world. -/
def Runs (program : Nat → Facts) (session : Session) (top : Option ScopeId) (world : World)
    (run : Run α) (post : World → α → Prop) : Prop :=
  ∀ machine, Inv program world machine →
    match run { session with machine } with
    | .ok value next => ∃ machine later, next = { session with machine } ∧
        Grows top world later ∧ Inv program later machine ∧ post later value
    | .error error next => Stopped error ∧ ∃ machine later, next = { session with machine } ∧
        Grows top world later ∧ Inv program later machine

variable {program : Nat → Facts} {session : Session} {top : Option ScopeId} {world : World}

namespace Runs

theorem pure {value : α} {post : World → α → Prop} (holds : post world value) :
    Runs program session top world (Pure.pure value) post :=
  fun machine inv => ⟨machine, world, rfl, Grows.refl top world, inv, holds⟩

/-- Both parts may add names to scopes that are not there at the start. -/
theorem bind {one : Option ScopeId} {run : Run α} {next : α → Run β} {middle : World → α → Prop}
    {post : World → β → Prop} (first : Runs program session one world run middle)
    (apart : ∀ id < world.size, one = some id → top = some id)
    (rest : ∀ later value, Grows one world later → middle later value →
      ∃ two, (∀ id < world.size, two = some id → top = some id) ∧
        Runs program session two later (next value) post) :
    Runs program session top world (run >>= next) post := by
  intro machine inv
  have ran := first machine inv
  rw [run_bind]
  have widen : ∀ {later}, Grows one world later → Grows top world later :=
    fun grows => (Grows.refl top world).then grows apart
  cases outcome : run { session with machine } with
  | error error after =>
      rw [outcome] at ran
      obtain ⟨stopped, halted, later, same, grows, invLater⟩ := ran
      exact ⟨stopped, halted, later, same, widen grows, invLater⟩
  | ok value after =>
      rw [outcome] at ran
      obtain ⟨reached, later, rfl, grows, invLater, holds⟩ := ran
      obtain ⟨two, within, runs⟩ := rest later value grows holds
      have tail := runs reached invLater
      dsimp only
      cases result : next value { session with machine := reached } with
      | error error final =>
          rw [result] at tail
          obtain ⟨stopped, halted, last, same, growsLast, invLast⟩ := tail
          exact ⟨stopped, halted, last, same, (widen grows).then growsLast within, invLast⟩
      | ok value final =>
          rw [result] at tail
          obtain ⟨halted, last, same, growsLast, invLast, holdsLast⟩ := tail
          exact ⟨halted, last, same, (widen grows).then growsLast within, invLast, holdsLast⟩

theorem seq {run : Run α} {next : α → Run β} {middle : World → α → Prop} {post : World → β → Prop}
    (first : Runs program session top world run middle)
    (rest : ∀ later value, Grows top world later → middle later value →
      Runs program session top later (next value) post) :
    Runs program session top world (run >>= next) post :=
  first.bind (fun _ _ same => same)
    fun later value grows holds => ⟨top, fun _ _ same => same, rest later value grows holds⟩

theorem weaken {run : Run α} {post other : World → α → Prop}
    (runs : Runs program session top world run post)
    (imp : ∀ later value, Grows top world later → post later value → other later value) :
    Runs program session top world run other := by
  intro machine inv
  have ran := runs machine inv
  cases outcome : run { session with machine } with
  | error error next =>
      rw [outcome] at ran
      exact ran
  | ok value next =>
      rw [outcome] at ran
      obtain ⟨reached, later, same, grows, invLater, holds⟩ := ran
      exact ⟨reached, later, same, grows, invLater, imp later value grows holds⟩

theorem get {next : Session → Run α} {post : World → α → Prop}
    (rest : ∀ machine, Runs program session top world (next { session with machine }) post) :
    Runs program session top world (MonadState.get >>= next) post :=
  fun machine inv => rest machine machine inv

/-- Code runs on the machine of a session. -/
theorem perform {place : Error → Error} {action : Eval α} {post : World → α → Prop}
    (cause : ∀ error, (place error).cause = error.cause)
    (keeps : ∀ calls, Keeps program calls top world action post) :
    Runs program session top world (Session.perform place action) post := by
  intro machine inv
  have ran := keeps machine.calls machine inv rfl
  unfold Session.perform
  dsimp only
  cases outcome : action machine with
  | error halt next =>
      rw [outcome] at ran
      obtain ⟨excused, later, grows, invLater⟩ := ran
      refine ⟨?_, next, later, rfl, grows, invLater⟩
      rw [Stopped, cause]
      exact stopped_of_excused excused
  | ok value next =>
      rw [outcome] at ran
      obtain ⟨_, later, grows, invLater, holds⟩ := ran
      exact ⟨next, later, rfl, grows, invLater, holds⟩

/-- What is known of a store may grow without a step. -/
theorem later {run : Run α} {post : World → α → Prop}
    (learn : ∀ machine, Inv program world machine → ∃ other, Grows top world other ∧
      Inv program other machine ∧ Runs program session top other run post) :
    Runs program session top world run post := by
  intro machine known
  obtain ⟨other, grows, inv, runs⟩ := learn machine known
  have ran := runs machine inv
  cases outcome : run { session with machine } with
  | error error next =>
      rw [outcome] at ran
      obtain ⟨stopped, halted, last, same, growsLast, invLast⟩ := ran
      exact ⟨stopped, halted, last, same, grows.trans growsLast, invLast⟩
  | ok value next =>
      rw [outcome] at ran
      obtain ⟨reached, last, same, growsLast, invLast, holds⟩ := ran
      exact ⟨reached, last, same, grows.trans growsLast, invLast, holds⟩

end Runs

end MiniGo.Running
