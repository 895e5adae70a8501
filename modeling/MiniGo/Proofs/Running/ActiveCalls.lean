import MiniGo.Proofs.Running.SoundPlans
import MiniGo.Proofs.Running.Typing

/-!
# Frames of active calls

A run leaves the frames of the active calls as it found them, however it ends. On its way only the bodies of
function values have a frame more, and that frame is on top while the body runs, return statements included.
`frames_disciplined` says so of every moment of a run at which a function of the evaluator begins; in between there
are plain steps alone. A run stops with too many active calls exactly if it comes to a call without room for its
frame. The sessions of a program begin each run with no frames, or with those that it ended with before, none.
-/

namespace MiniGo.Running

variable {α β : Type} {location : Location}

/-! ## What a plan does to the frames -/

/-- Functions that keep the frames, and give what they should. -/
structure Orderly (below : (task : Task) → Eval task.Result) : Prop where
  calls : ∀ task, KeepsCalls (below task)
  gives : ∀ task machine value after, below task machine = .ok value after → Gives task value

/-- What a plan begins from some frames: a function that is allowed, on a machine with the same frames, or the
body of a function value, with its frame on top. -/
def Begun (limit : Nat) (allowed : Task → Prop) (calls : CallStack) (entered : Option Closure) (task : Task)
    (machine : Machine) : Prop :=
  match entered with
  | none => machine.calls = calls ∧ allowed task
  | some closure => calls.depth < limit ∧ machine.calls = calls.push closure.frame ∧
      ∃ env, task = .statements env closure.literal.body

section

variable {limit : Nat} {closure : Closure} {opening : Eval Env} {body : Env → Eval Flow}

theorem KeepsCalls.inFrame {frame : Frame} {action : Eval α} (keeps : KeepsCalls action) :
    KeepsCalls (Eval.inFrame frame action) := by
  intro machine
  have same := keeps { machine with calls := machine.calls.push frame }
  unfold Eval.inFrame
  cases ran : action { machine with calls := machine.calls.push frame } with
  | ok value after | error halt after =>
      rw [ran] at same
      change after.calls.pop = machine.calls
      rw [show after.calls = machine.calls.push frame from same]
      rfl

theorem KeepsCalls.calling (plain : Plain opening) (keeps : ∀ env, KeepsCalls (body env)) :
    KeepsCalls (calling limit closure location opening body) := by
  intro before
  rcases Nat.lt_or_ge before.calls.depth limit with room | full
  · rw [calling_run room]
    exact plain.calls.then fun env middle _ => (keeps env).inFrame.then fun _ _ _ => rfl
  · rw [calling_full full]
    rfl

/-- A call stops because of too many active calls if there is no room for its frame, or if its body does. -/
theorem calling_overflows {before after : Machine} {halt : Halt} (plain : Plain opening) (deep : TooDeep halt)
    (halted : calling limit closure location opening body before = .error halt after) :
    (limit ≤ before.calls.depth ∧ halt = .fault (.stackOverflow limit location)) ∨
    (before.calls.depth < limit ∧ ∃ env machine last, opening before = .ok env machine ∧
      body env { machine with calls := machine.calls.push closure.frame } = .error halt last) := by
  rcases Nat.lt_or_ge before.calls.depth limit with room | full
  · rw [calling_run room] at halted
    rcases eval_bind_error halted with early | ⟨env, middle, opened, halted⟩
    · exact absurd deep (plain.shallow _ _ _ early)
    · rcases eval_bind_error halted with halted | ⟨_, _, _, halted⟩
      · unfold Eval.inFrame at halted
        split at halted
        · cases halted
        · rename_i early last ran
          obtain ⟨rfl, _⟩ := EStateM.Result.error.inj halted
          exact Or.inr ⟨room, env, middle, last, opened, ran⟩
      · cases halted
  · rw [calling_full full] at halted
    exact Or.inl ⟨full, (EStateM.Result.error.inj halted).1.symm⟩

end

namespace Plan.Sound

variable {limit : Nat} {below : (task : Task) → Eval task.Result} {allowed : Task → Prop}
  {callable : Closure → Location → Prop} {plan : Plan α}

theorem keepsCalls (sound : plan.Sound allowed callable) (orderly : Orderly below) :
    KeepsCalls (plan.perform limit below) := by
  induction plan with
  | done value => exact fun _ => rfl
  | step action next ih => exact fun _ => sound.1.calls.then fun value middle _ => ih value (sound.2 value) middle
  | start task next ih =>
      exact fun _ => (orderly.calls task).then fun value middle ran =>
        ih value (sound.2 value (orderly.gives _ _ _ _ ran)) middle
  | call closure location opening next ih =>
      exact fun _ => (KeepsCalls.calling sound.2.1 fun _ => orderly.calls _).then fun both middle _ =>
        ih both.1 both.2 (sound.2.2 _ _) middle

theorem begun {before machine : Machine} {entered : Option Closure} {task : Task}
    (reaches : plan.Reaches limit below before entered task machine) (sound : plan.Sound allowed callable)
    (orderly : Orderly below) : Begun limit allowed before.calls entered task machine := by
  induction reaches with
  | here => exact ⟨rfl, sound.1⟩
  | body room opened =>
      refine ⟨room, ?_, _, rfl⟩
      dsimp only
      rw [sound.2.1.calls.ran opened]
  | afterStep ran _ ih =>
      rw [← sound.1.calls.ran ran]
      exact ih (sound.2 _)
  | afterStart ran _ ih =>
      rw [← (orderly.calls _).ran ran]
      exact ih (sound.2 _ (orderly.gives _ _ _ _ ran))
  | afterCall ran _ ih =>
      rw [← (KeepsCalls.calling sound.2.1 fun _ => orderly.calls _).ran ran]
      exact ih (sound.2.2 _ _)

/-- A plan stops because of too many active calls if a function that it begins does, or if it comes to a call
without room. -/
theorem overflows {before after : Machine} {halt : Halt} (sound : plan.Sound allowed callable)
    (orderly : Orderly below) (deep : TooDeep halt) (halted : plan.perform limit below before = .error halt after) :
    (∃ entered task machine last, plan.Reaches limit below before entered task machine ∧
      below task machine = .error halt last) ∨
    ∃ closure location, halt = .fault (.stackOverflow limit location) ∧ callable closure location ∧
      limit ≤ before.calls.depth := by
  -- Along the plan: either the part that runs now stops for that reason, or it leaves the depth as it was.
  induction plan generalizing before with
  | done value => cases halted
  | step action next ih =>
      rcases eval_bind_error halted with early | ⟨value, middle, ran, halted⟩
      · exact absurd deep (sound.1.shallow _ _ _ early)
      · rcases ih value (sound.2 value) halted with ⟨entered, task, machine, last, reaches, ends⟩ | full
        · exact Or.inl ⟨entered, task, machine, last, .afterStep ran reaches, ends⟩
        · rw [sound.1.calls.ran ran] at full
          exact Or.inr full
  | start task next ih =>
      rcases eval_bind_error halted with early | ⟨value, middle, ran, halted⟩
      · exact Or.inl ⟨none, task, before, after, .here, early⟩
      · rcases ih value (sound.2 value (orderly.gives _ _ _ _ ran)) halted with
          ⟨entered, other, machine, last, reaches, ends⟩ | full
        · exact Or.inl ⟨entered, other, machine, last, .afterStart ran reaches, ends⟩
        · rw [(orderly.calls task).ran ran] at full
          exact Or.inr full
  | call closure location opening next ih =>
      rcases eval_bind_error halted with early | ⟨both, middle, ran, halted⟩
      · rcases calling_overflows sound.2.1 deep early with ⟨full, same⟩ | ⟨room, env, machine, last, opened, ends⟩
        · exact Or.inr ⟨closure, location, same, sound.1, full⟩
        · exact Or.inl ⟨some closure, _, _, last, .body room opened, ends⟩
      · rcases ih both.1 both.2 (sound.2.2 _ _) halted with ⟨entered, other, machine, last, reaches, ends⟩ | full
        · exact Or.inl ⟨entered, other, machine, last, .afterCall ran reaches, ends⟩
        · rw [(KeepsCalls.calling sound.2.1 fun _ => orderly.calls _).ran ran] at full
          exact Or.inr full

end Plan.Sound

variable {limit fuel : Nat}

theorem select_member {scope : Env} {tagged : Option (Value × Expr)} {cases : List SwitchCase}
    {selected : Option SwitchCase} {before after : Machine}
    (ran : Eval.select limit fuel scope tagged cases before = .ok selected after) :
    ∀ found, selected = some found → found ∈ cases := by
  induction fuel generalizing cases before with
  | zero => cases ran
  | succ fuel ih =>
      cases cases with
      | nil =>
          obtain ⟨rfl, _⟩ := EStateM.Result.ok.inj ran
          exact nofun
      | cons first rest =>
          obtain ⟨label, body, location⟩ := first
          cases label with
          | otherwise => exact fun found picked => List.mem_cons_of_mem _ (ih ran found picked)
          | values exprs =>
              obtain ⟨matched, middle, _, ran⟩ := eval_bind_ok ran
              cases matched with
              | true =>
                  obtain ⟨rfl, _⟩ := EStateM.Result.ok.inj ran
                  rintro found ⟨⟩
                  exact List.mem_cons_self
              | false => exact fun found picked => List.mem_cons_of_mem _ (ih ran found picked)

theorem run_gives (task : Task) {value : task.Result} {before after : Machine}
    (ran : run limit fuel task before = .ok value after) : Gives task value := by
  cases task with
  | select scope tagged cases => exact select_member ran
  | _ => trivial

theorem orderly (limit fuel : Nat) : Orderly (run limit fuel) := by
  induction fuel with
  | zero => exact ⟨fun task machine => by rw [run_zero]; rfl, fun task _ _ _ ran => run_gives task ran⟩
  | succ fuel ih =>
      refine ⟨fun task => ?_, fun task _ _ _ ran => run_gives task ran⟩
      rw [run_succ]
      exact (plan_sound task).keepsCalls ih

/-! ## Moments of a run -/

/-- A function of the evaluator begins, with what is left of the length of the run. -/
structure Activity where
  fuel : Nat
  /-- The function value whose body is running, if the run came to one. -/
  inside : Option Closure
  task : Task
  machine : Machine

/-- One function of the evaluator begins another. -/
inductive Begins (limit : Nat) : Activity → Activity → Prop
  | next {fuel : Nat} {inside entered : Option Closure} {task later : Task} {before machine : Machine}
      (reaches : (plan task).Reaches limit (run limit fuel) before entered later machine) :
      Begins limit ⟨fuel + 1, inside, task, before⟩ ⟨fuel, entered.or inside, later, machine⟩

/-- A run comes to a moment when another function of the evaluator begins. -/
abbrev Passes (limit : Nat) : Activity → Activity → Prop := Relation.ReflTransGen (Begins limit)

/-- The outcome of a function that begins. -/
def Activity.outcome (limit : Nat) (activity : Activity) : EStateM.Result Halt Machine activity.task.Result :=
  run limit activity.fuel activity.task activity.machine

/-- The frame of the function value whose body is running is on top, and the statements that run stand in the
body. -/
def Framed (activity : Activity) (closure : Closure) : Prop :=
  activity.machine.calls.frames.head? = some closure.frame ∧
    ∀ stmt ∈ activity.task.stmts, Stands stmt closure.literal.body

/-- What holds whenever a function begins in the course of a run: there is room for all active calls, and the
statements stand in the body of the function value whose frame is on top, or in what the run started with. -/
structure Settled (limit : Nat) (start now : Activity) : Prop where
  bounded : now.machine.calls.depth ≤ limit
  framed : ∀ closure, now.inside = some closure → Framed now closure
  outside : now.inside = none → ∀ stmt ∈ now.task.stmts, Stands stmt start.task.stmts

theorem Settled.begins {start now next : Activity} (settled : Settled limit start now) (begins : Begins limit now next) :
    Settled limit start next := by
  cases begins with
  | @next fuel inside entered task later before machine reaches =>
      have begun := Plan.Sound.begun reaches (plan_sound task) (orderly limit fuel)
      cases entered with
      | none =>
          obtain ⟨same, within⟩ := begun
          refine ⟨?_, fun closure here => ⟨?_, ?_⟩, fun here stmt member => ?_⟩
          · exact same ▸ settled.bounded
          · exact same ▸ (settled.framed closure here).1
          · exact fun stmt member => (within stmt member).trans (settled.framed closure here).2
          · exact (within stmt member).trans (settled.outside here)
      | some closure =>
          obtain ⟨room, pushed, env, rfl⟩ := begun
          refine ⟨?_, fun other here => ?_, nofun⟩
          · change machine.calls.depth ≤ limit
            rw [pushed]
            exact room
          · obtain rfl := Option.some.inj here
            refine ⟨?_, fun stmt member => .here member⟩
            change machine.calls.frames.head? = _
            rw [pushed]
            rfl

theorem Settled.passes {start now : Activity} (settled : Settled limit start start) (passes : Passes limit start now) :
    Settled limit start now := by
  induction passes with
  | refl => exact settled
  | tail _ begins ih => exact ih.begins begins

theorem Passes.halts {start now : Activity} {halt : Halt} {after : Machine} (passes : Passes limit start now)
    (halted : now.outcome limit = .error halt after) : ∃ last, start.outcome limit = .error halt last := by
  induction passes using Relation.ReflTransGen.head_induction_on with
  | refl => exact ⟨after, halted⟩
  | head begins _ ih =>
      obtain ⟨last, ended⟩ := ih
      cases begins with
      | next reaches =>
          obtain ⟨final, outcome⟩ := reaches.halts ended
          exact ⟨final, by rw [Activity.outcome, run_succ]; exact outcome⟩

/-- A run that stops because of too many active calls comes to a call without room. -/
theorem overflow_passes {fuel : Nat} (inside : Option Closure) {task : Task} {before after : Machine} {halt : Halt}
    (deep : TooDeep halt) (halted : run limit fuel task before = .error halt after) :
    ∃ fuel' inside' closure args location machine,
      Passes limit ⟨fuel, inside, task, before⟩ ⟨fuel' + 1, inside', .enter closure args location, machine⟩ ∧
      halt = .fault (.stackOverflow limit location) ∧
      args.length = closure.literal.signature.params.length ∧ limit ≤ machine.calls.depth := by
  induction fuel generalizing inside task before after with
  | zero =>
      -- A run without fuel does not stop because of its calls.
      rw [run_zero] at halted
      obtain ⟨rfl, _⟩ := EStateM.Result.error.inj halted
      exact deep.elim
  | succ fuel ih =>
      rw [run_succ] at halted
      rcases (plan_sound task).overflows (orderly limit fuel) deep halted with
        ⟨entered, later, machine, last, reaches, ends⟩ | ⟨closure, location, same, ⟨args, rfl, count⟩, full⟩
      · obtain ⟨fuel', inside', closure, args, location, found, passes, rest⟩ := ih (entered.or inside) ends
        exact ⟨fuel', inside', closure, args, location, found, .head (.next reaches) passes, rest⟩
      · exact ⟨fuel, inside, closure, args, location, before, .refl, same, count, full⟩

theorem enter_full {closure : Closure} {args : List Value} {machine : Machine}
    (count : args.length = closure.literal.signature.params.length) (full : limit ≤ machine.calls.depth) :
    run limit (fuel + 1) (.enter closure args location) machine
      = .error (.fault (.stackOverflow limit location)) machine := by
  rw [run_succ]
  change (Plan.enter closure args location).perform limit (run limit fuel) machine = _
  unfold Plan.enter
  dsimp only
  rw [if_neg (not_not.mpr count), Plan.perform, bind_run, calling_full full]

/-- What holds of the frames in the course of a run. -/
structure Disciplined (limit : Nat) (start : Activity) : Prop where
  /-- The frames are those of the beginning, whether the run ends well or not. -/
  kept : (behind (start.outcome limit)).calls = start.machine.calls
  /-- At no moment are there more frames than the limit allows. -/
  bounded : ∀ now, Passes limit start now → now.machine.calls.depth ≤ limit
  /-- The run stops with too many active calls exactly if it comes to a call of a function value, with as many
  arguments as there are parameters, while as many calls are active as the limit allows. -/
  overflow : ∀ count location,
    (∃ after, start.outcome limit = .error (.fault (.stackOverflow count location)) after) ↔
      count = limit ∧ ∃ fuel inside closure args machine,
        Passes limit start ⟨fuel + 1, inside, .enter closure args location, machine⟩ ∧
        args.length = closure.literal.signature.params.length ∧ machine.calls.depth = limit
  /-- When a return statement runs, the frame of the function value whose body it stands in is on top. Outside
  of function values run the statements only that the run started with. -/
  returns : ∀ fuel inside env exprs location machine,
    Passes limit start ⟨fuel, inside, .returning env exprs location, machine⟩ →
      match inside with
      | some closure => machine.calls.frames.head? = some ⟨closure.name, closure.literal.signature.results⟩ ∧
          Stands (.return exprs location) closure.literal.body
      | none => Stands (.return exprs location) start.task.stmts

/-- Every run is disciplined that starts with no more frames than the limit allows, and inside a function value, if
it does, with its frame on top. -/
theorem disciplined {start : Activity} (room : start.machine.calls.depth ≤ limit)
    (framed : ∀ closure, start.inside = some closure → Framed start closure) : Disciplined limit start := by
  have settled : Settled limit start start := ⟨room, framed, fun _ _ member => .here member⟩
  refine ⟨(orderly limit start.fuel).calls start.task start.machine, fun now passes => (settled.passes passes).bounded,
    fun count location => ⟨?_, ?_⟩, fun fuel inside env exprs location machine passes => ?_⟩
  · rintro ⟨after, halted⟩
    have deep : TooDeep (.fault (.stackOverflow count location)) := trivial
    obtain ⟨fuel, inside, closure, args, place, machine, passes, same, fits, full⟩ :=
      overflow_passes start.inside deep halted
    cases same
    exact ⟨rfl, fuel, inside, closure, args, machine, passes, fits,
      Nat.le_antisymm (settled.passes passes).bounded full⟩
  · rintro ⟨rfl, fuel, inside, closure, args, machine, passes, fits, full⟩
    exact passes.halts (enter_full fits full.ge)
  · have now := settled.passes passes
    cases inside with
    | none => exact now.outside rfl _ (List.mem_singleton.mpr rfl)
    | some closure =>
        obtain ⟨top, stands⟩ := now.framed closure rfl
        exact ⟨top, stands _ (List.mem_singleton.mpr rfl)⟩

/-! ## Sessions -/

/-- No call is active. -/
def Idle (session : Session) : Prop := session.machine.calls = .empty

/-- A step of a session keeps the frames, however it ends. -/
def Rests (step : Run α) : Prop :=
  ∀ session, (behind (step session)).machine.calls = session.machine.calls

namespace Rests

theorem pure {value : α} : Rests (Pure.pure value) := fun _ => rfl

theorem throw {error : Error} : Rests (MonadExcept.throw error : Run α) := fun _ => rfl

theorem bind {step : Run α} {next : α → Run β} (first : Rests step) (rest : ∀ value, Rests (next value)) :
    Rests (step >>= next) := by
  intro session
  have same := first session
  rw [run_bind]
  cases ran : step session with
  | ok value after =>
      rw [ran] at same
      exact (rest value after).trans same
  | error error after =>
      rw [ran] at same
      exact same

theorem get {next : Session → Run α} (rest : ∀ session, Rests (next session)) : Rests (MonadState.get >>= next) :=
  fun session => rest session session

theorem perform {place : Error → Error} {action : Eval α} (keeps : KeepsCalls action) :
    Rests (Session.perform place action) := by
  intro session
  have same := keeps session.machine
  unfold Session.perform
  cases ran : action session.machine <;> rw [ran] at same <;> exact same

theorem bindImports {file : SourceFile} {env : Env} {imports : List Import} :
    Rests (Session.bindImports file env imports) := by
  induction imports with
  | nil => exact pure
  | cons found imports ih =>
      refine get fun session => ?_
      cases session.packages.lookup found.path with
      | none => exact throw.bind fun _ => ih
      | some package => exact (perform Plain.bindTyped.calls).bind fun _ => ih

theorem openFiles {env : Env} {files : List SourceFile} : Rests (Session.openFiles env files) := by
  induction files with
  | nil => exact pure
  | cons file files ih =>
      exact (perform Plain.openScope.calls).bind fun _ => bindImports.bind fun _ => ih.bind fun _ => pure

theorem bindFunctions {env inner : Env} {functions : List (String × FunctionLiteral)} :
    Rests (Session.bindFunctions env inner functions) := by
  induction functions with
  | nil => exact pure
  | cons function functions ih =>
      exact (perform Plain.makeClosure.calls).bind fun _ => (perform Plain.bindTyped.calls).bind fun _ => ih

theorem bindFiles {env : Env} {pairs : List (SourceFile × Env)} : Rests (Session.bindFiles env pairs) := by
  induction pairs with
  | nil => exact pure
  | cons pair pairs ih => exact bindFunctions.bind fun _ => ih

theorem runInitializers {package : Package} {env : Env} {inner : List Env} {items : List Initializer} :
    Rests (Session.runInitializers package env inner items) := by
  induction items with
  | nil => exact pure
  | cons item items ih =>
      refine get fun session => ?_
      exact (perform ((orderly _ session.fuel).calls (.declare _ env item.decl))).bind fun _ => ih

theorem bindPackage {package : Package} : Rests (Session.bindPackage package) := by
  refine get fun session => (perform Plain.openScope.calls).bind fun env => openFiles.bind fun inner =>
    bindFiles.bind fun _ => ?_
  cases initializationOrder package with
  | error error => exact throw.bind fun _ => pure
  | ok order => exact runInitializers.bind fun _ => pure

theorem loadAll {packages : List Package} : Rests (Session.loadAll packages) := by
  induction packages with
  | nil => exact pure
  | cons package packages ih =>
      have load : Rests (Session.load package) := bindPackage.bind fun _ _ => rfl
      exact load.bind fun _ => ih

end Rests

theorem loadPackages_idle {settings : Settings} {output : Output} {entry : String} {packages : List Package} :
    Idle (behind (loadPackages fuel settings output entry packages)) := by
  have loads : Rests (do Session.loadAll packages; Session.setEntryPackage entry) := Rests.loadAll.bind fun _ _ => rfl
  exact loads (Session.start fuel settings output)

theorem invoke_idle {session : Session} (idle : Idle session) (path name : String) (args : List Value) :
    Idle (behind (Session.invoke path name args session)) := by
  rw [invoke_run]
  cases session.function? path name with
  | none => exact idle
  | some function =>
      have kept := (orderly session.settings.maxCallDepth session.fuel).calls (.apply function args Location.nowhere)
        { session.machine with calls := .empty }
      have ran : callFresh session function args session.machine
        = run session.settings.maxCallDepth session.fuel (.apply function args Location.nowhere)
          { session.machine with calls := .empty } := rfl
      rw [← ran] at kept
      unfold Session.perform
      dsimp only
      cases outcome : callFresh session function args session.machine <;> rw [outcome] at kept <;> exact kept

/-- Every run is disciplined, and the sessions of a program have no active calls between their runs, however those
end: a run of a program begins with none. -/
theorem frames_disciplined (limit : Nat) :
    (∀ start : Activity, start.machine.calls.depth ≤ limit →
      (∀ closure, start.inside = some closure → Framed start closure) → Disciplined limit start) ∧
    (∀ fuel settings output entry packages, Idle (behind (loadPackages fuel settings output entry packages))) ∧
    ∀ session path name args, Idle session → Idle (behind (Session.invoke path name args session)) :=
  ⟨fun _ room framed => disciplined room framed, fun _ _ _ _ _ => loadPackages_idle,
    fun _ path name args idle => invoke_idle idle path name args⟩

/-! A function that calls itself and nothing else, called with room for two calls. -/

namespace Endless

/-- `func f() int { return f() }`. -/
def closure : Closure :=
  ⟨0, "f", ⟨⟨[], [.int], []⟩, [.return [.call (.identifier "f" ⟨1, 23⟩) [] ⟨1, 24⟩] ⟨1, 16⟩], ⟨1, 1⟩⟩, [0]⟩

def start : Activity where
  fuel := 40
  inside := none
  task := .apply (.function closure) [] Location.nowhere
  machine := { Machine.initial .empty with store := ⟨#[⟨[("f", ⟨.function closure, false⟩)]⟩]⟩ }

@[irreducible] def last : Machine := behind (start.outcome 2)

theorem stopped : start.outcome 2 = .error (.fault (.stackOverflow 2 ⟨1, 24⟩)) last := by
  unfold last
  cbv

end Endless

theorem endless_recursion_stopped :
    Endless.start.machine.calls.depth ≤ 2 ∧ (∀ closure, Endless.start.inside = some closure → Framed Endless.start closure) ∧
    (behind (Endless.start.outcome 2)).calls = .empty ∧
    ∃ fuel inside closure args machine,
      Passes 2 Endless.start ⟨fuel + 1, inside, .enter closure args ⟨1, 24⟩, machine⟩ ∧
      args.length = closure.literal.signature.params.length ∧ machine.calls.depth = 2 := by
  have room : Endless.start.machine.calls.depth ≤ 2 := by decide
  have outside : ∀ closure, Endless.start.inside = some closure → Framed Endless.start closure := nofun
  have discipline := (frames_disciplined 2).1 Endless.start room outside
  exact ⟨room, outside, discipline.kept, ((discipline.overflow 2 ⟨1, 24⟩).mp ⟨_, Endless.stopped⟩).2⟩

end MiniGo.Running
