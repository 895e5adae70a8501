import MiniGo.Proofs.Running.Bounds
import MiniGo.Proofs.Running.Programs

/-!
# The limit on active calls

How many calls may be active at once decides only whether a run stops because of it. Under a greater limit
the evaluator comes to the same outcome and the same machine, unless it stopped because of its limit
(`deepening`). The frames of the active calls are the same in both, so nothing else that depends on them can
differ, and sessions and their callers cannot tell the limits apart.
-/

namespace MiniGo.Running

/-- Too many calls were active. -/
def TooDeep : Halt → Prop
  | .fault (.stackOverflow _ _) => True
  | _ => False

/-- Every function of the evaluator does the same under a greater limit, unless too many calls were active. -/
theorem deepening {low high : Nat} (le : low ≤ high) (fuel : Nat) : Surpassing TooDeep low high fuel fuel := by
  induction fuel with
  | zero => exact surpassing_none TooDeep low high
  | succ fuel ih => exact ih.succ ⟨le, Or.inr fun _ _ => trivial⟩

end MiniGo.Running

/-! ## Sessions -/


namespace MiniGo

/-- Settings with another limit on active calls. -/
def Settings.withLimit (settings : Settings) (limit : Nat) : Settings :=
  { settings with maxCallDepth := limit }

def Session.withLimit (session : Session) (limit : Nat) : Session :=
  { session with settings := session.settings.withLimit limit }

/-- A failure because too many calls were active. -/
def Error.IsOverflow (error : Error) : Prop :=
  ∃ limit location, error.cause = .runtime (.stackOverflow limit location)

end MiniGo

namespace MiniGo.Running

variable {low high fuel : Nat}

theorem TooDeep.toError {halt : Halt} {error : Error} (deep : TooDeep halt)
    (same : error.cause = halt.toError.cause) : error.IsOverflow := by
  unfold Error.IsOverflow
  rw [same]
  cases halt with
  | exhausted => exact deep.elim
  | fault fault =>
      cases fault with
      | stackOverflow limit location => exact ⟨limit, location, rfl⟩
      | _ => exact deep.elim

/-- A step of a session with the limit `low` ended as one with the limit `high`: with the same outcome and
the same session but for the limit, unless too many calls were active. -/
def SameEnd (low high : Nat) : EStateM.Result Error Session α → EStateM.Result Error Session α → Prop
  | .ok value after, deep => after.settings.maxCallDepth = low ∧ deep = .ok value (after.withLimit high)
  | .error error after, deep => error.IsOverflow ∨
      after.settings.maxCallDepth = low ∧ deep = .error error (after.withLimit high)

/-- Two steps do the same, the first from sessions with the limit `low` and the second with `high`. -/
def Follows (low high : Nat) (shallow deep : Run α) : Prop :=
  ∀ session : Session, session.settings.maxCallDepth = low →
    SameEnd low high (shallow session) (deep (session.withLimit high))

namespace Follows

theorem pure {value : α} : Follows low high (Pure.pure value) (Pure.pure value) :=
  fun _ limited => ⟨limited, rfl⟩

theorem throw {error : Error} :
    Follows low high (MonadExcept.throw error : Run α) (MonadExcept.throw error) :=
  fun _ limited => Or.inr ⟨limited, rfl⟩

theorem bind {shallow deep : Run α} {next behind : α → Run β} (first : Follows low high shallow deep)
    (rest : ∀ value, Follows low high (next value) (behind value)) :
    Follows low high (shallow >>= next) (deep >>= behind) := by
  intro session limited
  have ran := first session limited
  rw [run_bind, run_bind]
  cases outcome : shallow session with
  | ok value after =>
      rw [outcome] at ran
      obtain ⟨limited, agree⟩ := ran
      rw [agree]
      exact rest value after limited
  | error error after =>
      rw [outcome] at ran
      rcases ran with overflow | ⟨limited, agree⟩
      · exact Or.inl overflow
      · rw [agree]
        exact Or.inr ⟨limited, rfl⟩

theorem get {next behind : Session → Run α}
    (rest : ∀ session : Session, session.settings.maxCallDepth = low →
      Follows low high (next session) (behind (session.withLimit high))) :
    Follows low high (MonadState.get >>= next) (MonadState.get >>= behind) :=
  fun session limited => rest session limited session limited

theorem modify {change : Session → Session}
    (kept : ∀ session, (change session).settings = session.settings)
    (apart : ∀ session : Session, change (session.withLimit high) = (change session).withLimit high) :
    Follows low high (modify change : Run Unit) (modify change) :=
  fun session limited => ⟨by rw [kept session, limited], congrArg (EStateM.Result.ok ()) (apart session)⟩

def settled (place : Error → Error) (session : Session) :
    EStateM.Result Halt Machine α → EStateM.Result Error Session α
  | .ok value machine => .ok value { session with machine }
  | .error halt machine => .error (place halt.toError) { session with machine }

theorem perform_eq (place : Error → Error) (action : Eval α) (session : Session) :
    Session.perform place action session = settled place session (action session.machine) := by
  unfold Session.perform
  cases action session.machine <;> rfl

theorem perform {place : Error → Error} {shallow deep : Eval α}
    (same : ∀ error, (place error).cause = error.cause) (deepens : Surpasses TooDeep shallow deep) :
    Follows low high (Session.perform place shallow) (Session.perform place deep) := by
  intro session limited
  rw [perform_eq, perform_eq]
  change SameEnd low high _ (settled place (session.withLimit high) (deep session.machine))
  rcases deepens session.machine with overflows | agree
  · cases outcome : shallow session.machine with
    | ok value after =>
        rw [outcome] at overflows
        exact overflows.elim
    | error halt after =>
        rw [outcome] at overflows
        exact Or.inl (TooDeep.toError overflows (same _))
  · rw [agree]
    cases shallow session.machine with
    | ok value after => exact ⟨limited, rfl⟩
    | error halt after => exact Or.inr ⟨limited, rfl⟩

/-! ### Loading -/

theorem bindImports {file : SourceFile} {env : Env} {imports : List Import} :
    Follows low high (Session.bindImports file env imports) (Session.bindImports file env imports) := by
  induction imports with
  | nil => exact pure
  | cons found imports ih =>
      refine get fun session _ => ?_
      rw [show (session.withLimit high).packages = session.packages from rfl]
      cases session.packages.lookup found.path with
      | none => exact throw.bind fun _ => ih
      | some package => exact (perform (fun _ => rfl) .same).bind fun _ => ih

theorem openFiles {env : Env} {files : List SourceFile} :
    Follows low high (Session.openFiles env files) (Session.openFiles env files) := by
  induction files with
  | nil => exact pure
  | cons file files ih =>
      exact (perform (fun _ => rfl) .same).bind fun _ => bindImports.bind fun _ => ih.bind fun _ => pure

theorem bindFunctions {env inner : Env} {functions : List (String × FunctionLiteral)} :
    Follows low high (Session.bindFunctions env inner functions) (Session.bindFunctions env inner functions) := by
  induction functions with
  | nil => exact pure
  | cons function functions ih =>
      exact (perform (fun _ => rfl) .same).bind fun _ => (perform (fun _ => rfl) .same).bind fun _ => ih

theorem bindFiles {env : Env} {pairs : List (SourceFile × Env)} :
    Follows low high (Session.bindFiles env pairs) (Session.bindFiles env pairs) := by
  induction pairs with
  | nil => exact pure
  | cons pair pairs ih => exact bindFunctions.bind fun _ => ih

theorem runInitializers (le : low ≤ high) {package : Package} {env : Env} {inner : List Env}
    {items : List Initializer} :
    Follows low high (Session.runInitializers package env inner items)
      (Session.runInitializers package env inner items) := by
  induction items with
  | nil => exact pure
  | cons item items ih =>
      refine get fun session limited => ?_
      have declares : Surpasses TooDeep
          (Eval.declare session.settings.maxCallDepth session.fuel ((inner[item.file]?).getD env) env item.decl)
          (Eval.declare high session.fuel ((inner[item.file]?).getD env) env item.decl) := by
        rw [limited]
        exact (deepening le _).declare
      have performs : Follows low high (Session.perform (.inFile (package.filePath item.file)) _) _ :=
        perform (fun _ => rfl) declares
      exact performs.bind fun _ => ih

theorem bindPackage (le : low ≤ high) {package : Package} :
    Follows low high (Session.bindPackage package) (Session.bindPackage package) := by
  refine get fun session _ => (perform (fun _ => rfl) .same).bind fun env => openFiles.bind fun inner =>
    bindFiles.bind fun _ => ?_
  cases initializationOrder package with
  | error error => exact throw.bind fun _ => pure
  | ok order => exact (runInitializers le).bind fun _ => pure

theorem loadAll (le : low ≤ high) {packages : List Package} :
    Follows low high (Session.loadAll packages) (Session.loadAll packages) := by
  induction packages with
  | nil => exact pure
  | cons package packages ih =>
      have load : Follows low high (Session.load package) (Session.load package) :=
        (bindPackage le).bind fun _ => modify (fun _ => rfl) fun _ => rfl
      exact load.bind fun _ => ih

/-! ### Calls -/

theorem invoke (le : low ≤ high) {path name : String} {args : List Value} :
    Follows low high (Session.invoke path name args) (Session.invoke path name args) := by
  intro session limited
  have same : (session.withLimit high).function? path name = session.function? path name := rfl
  rw [invoke_run, invoke_run, same]
  cases session.function? path name with
  | none => exact Or.inr ⟨limited, rfl⟩
  | some function =>
      refine perform (fun _ => rfl) (fun machine => ?_) session limited
      have applies : Surpasses TooDeep (Eval.apply session.settings.maxCallDepth session.fuel function args Location.nowhere)
          (Eval.apply high session.fuel function args Location.nowhere) := by
        rw [limited]
        exact (deepening le _).apply
      exact applies { machine with calls := .empty }

end Follows

theorem loadPackages_withLimit {settings : Settings} {limit : Nat} (le : settings.maxCallDepth ≤ limit)
    (output : Output) (entry : String) (packages : List Package) :
    SameEnd settings.maxCallDepth limit (loadPackages fuel settings output entry packages)
      (loadPackages fuel (settings.withLimit limit) output entry packages) := by
  have loads : Follows settings.maxCallDepth limit
      (do Session.loadAll packages; Session.setEntryPackage entry)
      (do Session.loadAll packages; Session.setEntryPackage entry) :=
    (Follows.loadAll le).bind fun _ => .modify (fun _ => rfl) fun _ => rfl
  exact loads (Session.start fuel settings output) rfl

/-! ## Callers -/

/-- A call from outside. -/
structure Call where
  path : String
  name : String
  args : List Value

/-- What a caller sees of a call: its results, or why it failed, and what was printed. -/
structure Answer where
  outcome : Except Error (List Value)
  printed : String

/-- A caller makes one call after another, and may choose each by the answers before it. -/
abbrev Caller := List (List Answer → Call)

/-- A session without the text that it printed, and the text. -/
def drain (session : Session) : String × Session :=
  let (text, output) := session.machine.output.take
  (text, { session with machine := { session.machine with output } })

/-- The answers to the calls of a caller, behind those that it had before. -/
def serve : Caller → List Answer → Session → List Answer
  | [], answers, _ => answers
  | next :: rest, answers, session =>
      let call := next answers
      match Session.invoke call.path call.name call.args session with
      | .ok results after =>
          let (printed, after) := drain after
          serve rest (answers ++ [⟨.ok results, printed⟩]) after
      | .error error after =>
          let (printed, after) := drain after
          serve rest (answers ++ [⟨.error error, printed⟩]) after

/-- What a caller sees of a program: why it was not built, if it was not, what was printed until then, and
the answers to the calls. -/
structure Transcript where
  failure : Option Error
  printed : String
  answers : List Answer

/-- What a caller sees of a program that is built and called. -/
def transcript (files : FileTree) (fuel : Nat) (settings : Settings) (output : Output) (entry : String)
    (workspace : Workspace) (caller : Caller) : Transcript :=
  match prepare files entry workspace with
  | .error error _ => ⟨some error, "", []⟩
  | .ok packages _ =>
      match loadPackages fuel settings output entry packages with
      | .error error session => ⟨some error, (drain session).1, []⟩
      | .ok _ session => ⟨none, (drain session).1, serve caller [] (drain session).2⟩

/-- Too many calls were active while a program was built or called. -/
def Transcript.Overflowed (found : Transcript) : Prop :=
  (∃ error, found.failure = some error ∧ error.IsOverflow) ∨
    ∃ answer ∈ found.answers, ∃ error, answer.outcome = .error error ∧ error.IsOverflow

theorem failure_eq_build (files : FileTree) (fuel : Nat) (settings : Settings) (output : Output)
    (entry : String) (workspace : Workspace) (caller : Caller) :
    (transcript files fuel settings output entry workspace caller).failure
      = match build files fuel settings output entry workspace with
        | .ok _ _ => none
        | .error error _ => some error := by
  simp only [transcript, build, bind, EStateM.bind]
  cases prepare files entry workspace with
  | error error after => rfl
  | ok packages after =>
      dsimp only
      cases loadPackages fuel settings output entry packages <;> rfl

theorem prefix_serve (caller : Caller) (answers : List Answer) (session : Session) :
    answers <+: serve caller answers session := by
  induction caller generalizing answers session with
  | nil => exact List.prefix_rfl
  | cons next rest ih =>
      unfold serve
      dsimp only
      split <;> exact (List.prefix_append _ _).trans (ih _ _)

theorem serve_withLimit (le : low ≤ high) (caller : Caller) (answers : List Answer) (session : Session)
    (limited : session.settings.maxCallDepth = low)
    (fits : ∀ answer ∈ serve caller answers session, ∀ error, answer.outcome = .error error → ¬ error.IsOverflow) :
    serve caller answers (session.withLimit high) = serve caller answers session := by
  induction caller generalizing answers session with
  | nil => rfl
  | cons next rest ih =>
      have ran : SameEnd low high (Session.invoke (next answers).path (next answers).name (next answers).args session)
          _ := Follows.invoke le session limited
      unfold serve at fits ⊢
      dsimp only at fits ⊢
      cases outcome : Session.invoke (next answers).path (next answers).name (next answers).args session with
      | ok results after =>
          rw [outcome] at ran fits
          obtain ⟨limited, agree⟩ := ran
          rw [agree]
          exact ih _ (drain after).2 limited fits
      | error error after =>
          rw [outcome] at ran fits
          -- An overflow would be among the answers, and none of them is one.
          rcases ran with overflow | ⟨limited, agree⟩
          · have member : ⟨.error error, (drain after).1⟩ ∈ serve rest
                (answers ++ [⟨.error error, (drain after).1⟩]) (drain after).2 :=
              (prefix_serve _ _ _).subset (by simp)
            exact absurd overflow (fits _ member error rfl)
          · rw [agree]
            exact ih _ (drain after).2 limited fits

/-- A run in which the limit on active calls does not stop anything is the same under every greater
limit. -/
theorem limit_only_cuts_off {files : FileTree} {settings : Settings} {output : Output} {entry : String}
    {workspace : Workspace} {caller : Caller} {limit : Nat} (le : settings.maxCallDepth ≤ limit)
    (fits : ¬ (transcript files fuel settings output entry workspace caller).Overflowed) :
    transcript files fuel (settings.withLimit limit) output entry workspace caller
      = transcript files fuel settings output entry workspace caller := by
  unfold transcript at fits ⊢
  cases prepared : prepare files entry workspace with
  | error error after => rfl
  | ok packages after =>
      rw [prepared] at fits
      have loaded : SameEnd settings.maxCallDepth limit (loadPackages fuel settings output entry packages) _ :=
        loadPackages_withLimit le output entry packages
      dsimp only at fits ⊢
      cases outcome : loadPackages fuel settings output entry packages with
      | error error session =>
          rw [outcome] at loaded fits
          rcases loaded with overflow | ⟨limited, agree⟩
          · exact absurd (Or.inl ⟨error, rfl, overflow⟩) fits
          · rw [agree]
            rfl
      | ok value session =>
          rw [outcome] at loaded fits
          obtain ⟨limited, agree⟩ := loaded
          rw [agree]
          have answers := serve_withLimit le caller [] (drain session).2 limited fun answer member error failed overflow =>
            fits (Or.inr ⟨answer, member, error, failed, overflow⟩)
          exact congrArg (Transcript.mk none (drain session).1) answers

namespace Halving

/-- A package with a recursive function that prints at zero, and fails behind it. -/
def package : Package := ⟨"main", "main", [⟨"main.go", ⟨"main", [⟨none, "fmt", ⟨2, 8⟩⟩], [
  .function "Halve" ⟨⟨[⟨"n", .int⟩], [.int], []⟩, [
    .ifElse ⟨none, .binary (.identifier "n" ⟨4, 5⟩) .equal (.integer 0) ⟨4, 7⟩,
      [.expression (.call (.qualified "fmt" "Print" ⟨5, 6⟩) [.string "x"] ⟨5, 12⟩)], .absent, ⟨4, 2⟩⟩,
    .return [.call (.identifier "Halve" ⟨7, 9⟩)
      [.binary (.integer 1) .divide (.identifier "n" ⟨7, 17⟩) ⟨7, 16⟩] ⟨7, 14⟩] ⟨7, 2⟩], ⟨3, 1⟩⟩]⟩⟩]⟩

def caller : Caller := [fun _ => ⟨"main", "Halve", [.int 2]⟩]

theorem seen : transcript .empty 100 ⟨2, none, "main"⟩ .empty "main" ⟨none, [package]⟩ caller
    = ⟨none, "", [⟨.error (.runtime (.divisionByZero ⟨7, 16⟩)), "x"⟩]⟩ := by
  unfold package caller
  cbv

theorem fits : ¬ (transcript .empty 100 ⟨2, none, "main"⟩ .empty "main" ⟨none, [package]⟩ caller).Overflowed := by
  rw [seen]
  rintro (⟨error, ⟨⟩, _⟩ | ⟨answer, member, error, failed, limit, location, overflow⟩)
  obtain rfl := List.mem_singleton.mp member
  cases failed
  cases overflow

end Halving

/-- The program of `Halving` has two calls active at most, and does the same with room for a thousand. -/
theorem halving_same_with_more_room :
    ¬ (transcript .empty 100 ⟨2, none, "main"⟩ .empty "main" ⟨none, [Halving.package]⟩
        Halving.caller).Overflowed ∧
      transcript .empty 100 ⟨1000, none, "main"⟩ .empty "main" ⟨none, [Halving.package]⟩ Halving.caller
        = ⟨none, "", [⟨.error (.runtime (.divisionByZero ⟨7, 16⟩)), "x"⟩]⟩ := by
  have more : (⟨2, none, "main"⟩ : Settings).maxCallDepth ≤ 1000 := by decide
  exact ⟨Halving.fits, (limit_only_cuts_off more Halving.fits).trans Halving.seen⟩

end MiniGo.Running
