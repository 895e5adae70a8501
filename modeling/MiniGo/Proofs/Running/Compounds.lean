import MiniGo.Proofs.Places.Erasing
import MiniGo.Proofs.Running.Echoing
import MiniGo.Proofs.Running.TidySessions

/-!
# Compound assignments are shorthands

`x op= e` reads `x` once and writes it at the end, while `x = x op e` reads it, looks it up again when it is
written, and compares kinds. They come to the same end, because the evaluation of `e` leaves every name of the
environment where it was, and every variable its kind, even when `e` calls functions that write `x`.
-/

namespace MiniGo.Running

open Syntax

variable {limit fuel : Nat} {env : Env} {name : String} {location : Location}

/-! ## The same state -/

/-- Two machines are in the same state; the events that led to it do not count. -/
def SameState (machine other : Machine) : Prop := other = { machine with past := other.past }

/-- Two computations come to the same end: the same result, or the same error at another place, in the same
state. -/
def EndsAlike : EStateM.Result Halt Machine α → EStateM.Result Halt Machine α → Prop
  | .ok value after, .ok other later => other = value ∧ SameState after later
  | .error halt after, .error stop later => Placeless.halt stop = Placeless.halt halt ∧ SameState after later
  | _, _ => False

theorem filterMap_some (env : Env) : env.filterMap (some : Pairing) = env := List.filterMap_some

theorem twin_some {value other : Value} : Twin some value other ↔ other = value := by
  constructor
  · intro twin
    cases twin with
    | plain => rfl
    | function identity name literal env => rw [filterMap_some]
    | package paired =>
        cases paired
        rfl
  · rintro rfl
    cases other with
    | function closure =>
        obtain ⟨identity, name, literal, env⟩ := closure
        have twin : Twin some _ _ := .function identity name literal env
        rwa [filterMap_some] at twin
    | package ref => exact .package rfl
    | _ => exact .plain nofun nofun

theorem bindingTwin_some {binding other : Binding} : BindingTwin some binding other ↔ other = binding := by
  obtain ⟨value, mutable⟩ := binding
  obtain ⟨other, mutable'⟩ := other
  constructor
  · rintro ⟨values, same⟩
    rw [show other = value from twin_some.mp values, show mutable' = mutable from same]
  · rintro ⟨⟩
    exact ⟨twin_some.mpr rfl, rfl⟩

theorem entryTwins_some {entries others : List (String × Binding)} : EntryTwins some entries others ↔ others = entries := by
  constructor
  · intro twins
    induction twins with
    | nil => rfl
    | cons first _ ih => rw [ih, Prod.ext first.1 (bindingTwin_some.mp first.2)]
  · rintro rfl
    exact List.forall₂_same.mpr fun entry _ => ⟨rfl, bindingTwin_some.mpr rfl⟩

theorem storeTwin_some {store other : Store} : StoreTwin some store other ↔ other = store := by
  constructor
  · intro twin
    have size : store.scopes.size = other.scopes.size := by
      have paired := twin.fresh 0
      exact Option.some.inj paired
    obtain ⟨scopes⟩ := store
    obtain ⟨scopes'⟩ := other
    congr 1
    refine (Array.ext size fun id one two => ?_).symm
    have paired : EntryTwins some (Store.scope ⟨scopes⟩ id).bindings (Store.scope ⟨scopes'⟩ id).bindings := twin.entries rfl
    have entries := entryTwins_some.mp paired
    simp only [Store.scope, Array.getD_eq_getD_getElem?, Array.getElem?_eq_getElem one,
      Array.getElem?_eq_getElem two, Option.getD_some] at entries
    exact congrArg Scope.mk entries.symm
  · rintro rfl
    exact ⟨fun one two => Option.some.inj (one.trans two.symm), fun _ => rfl,
      fun paired => by cases paired; exact entryTwins_some.mpr rfl, fun none => by cases none⟩

theorem machineTwin_some {machine other : Machine} : MachineTwin some machine other ↔ SameState machine other := by
  constructor
  · intro twin
    obtain ⟨store, calls, output, closures, past⟩ := machine
    obtain ⟨store', calls', output', closures', past'⟩ := other
    obtain ⟨stores, rfl, rfl, rfl⟩ := twin
    obtain rfl := storeTwin_some.mp stores
    rfl
  · intro same
    rw [SameState] at same
    rw [same]
    exact ⟨storeTwin_some.mpr rfl, rfl, rfl, rfl⟩

theorem Echoes.here {same : α → α → Prop} (action : Env → Eval α)
    (echoes : Echoes some same (action env) (action (env.filterMap some))) : Echoes some same (action env) (action env) := by
  rwa [filterMap_some] at echoes

theorem evaluate_echoes {expr : Expr} :
    Echoes some (Twin some) (Eval.evaluate limit fuel env expr) (Eval.evaluate limit fuel env expr) :=
  .here (Eval.evaluate limit fuel · expr) (echoing some limit fuel).evaluate

theorem evaluate_same {expr : Expr} {machine other : Machine} (same : SameState machine other) :
    EndsAlike (Eval.evaluate limit fuel env expr machine) (Eval.evaluate limit fuel env expr other) := by
  have echoes := @evaluate_echoes limit fuel env expr machine other (machineTwin_some.mpr same)
  cases one : Eval.evaluate limit fuel env expr machine <;> cases two : Eval.evaluate limit fuel env expr other <;>
    rw [one, two] at echoes
  · exact ⟨twin_some.mp echoes.1, machineTwin_some.mp echoes.2⟩
  · exact echoes.elim
  · exact echoes.elim
  · exact ⟨congrArg _ echoes.1, machineTwin_some.mp echoes.2⟩

/-- A computation that keeps machines tidy keeps a store tidy, whatever the past of its machine. -/
theorem Tidies.of_store {size bound : Nat} {action : Eval α} {post : Nat → α → Prop} {same : α → α → Prop} {value : α}
    {machine after : Machine} (tidies : Tidies size bound action post) (echoes : Echoes some same action action)
    (tidy : TidyStore machine.store) (le : size ≤ machine.store.scopes.size) (old : bound ≤ machine.store.scopes.size)
    (ran : action machine = .ok value after) : TidyStore after.store ∧ Retains bound machine.store after.store := by
  -- the same run without a past
  let fresh : Machine := { machine with past := fun _ _ => False }
  have kept := tidies fresh ⟨tidy, nofun⟩ le old
  have echoed := echoes machine fresh (machineTwin_some.mpr rfl)
  rw [ran] at echoed
  cases outcome : action fresh with
  | error halt later =>
      rw [outcome] at echoed
      exact echoed.elim
  | ok other later =>
      rw [outcome] at echoed kept
      have stores : later.store = after.store := by rw [machineTwin_some.mp echoed.2]
      exact stores ▸ ⟨kept.1.store, kept.2.1⟩

/-- An expression keeps names of the scopes that are there, and the kinds of variables. -/
theorem evaluate_retains {expr : Expr} {value : Value} {machine after : Machine} (tidy : TidyStore machine.store)
    (within : Within machine.store.scopes.size env) (formed : Formed.expr expr)
    (ran : Eval.evaluate limit fuel env expr machine = .ok value after) :
    Retains machine.store.scopes.size machine.store after.store :=
  (((tidying limit fuel).evaluate within formed).of_store evaluate_echoes tidy (Nat.le_refl _) (Nat.le_refl _) ran).2

/-! ## Operators and errors -/

/-- Where an operator stands matters to the place of its error only. -/
theorem ofExcept_binary (op : BinaryOp) (left right : Value) (here there : Location) {machine other : Machine}
    (same : SameState machine other) :
    EndsAlike (Eval.ofExcept (Value.binary op left right here) machine)
      (Eval.ofExcept (Value.binary op left right there) other) := by
  have one := Placeless.binary_value op left right here
  rw [Placeless.binary_value op left right there] at one
  have bare : ∀ value : Value, isScalar value.kind = true → Placeless.value value = value := by
    intro value scalar
    cases value with
    | int | float | string | bool => rfl
    | _ => cases scalar
  unfold Eval.ofExcept
  cases first : Value.binary op left right here <;> cases second : Value.binary op left right there <;>
    rw [first, second] at one
  · exact ⟨congrArg Halt.fault (Except.error.inj one), same⟩
  · cases one
  · cases one
  · have values := Except.ok.inj one
    rw [bare _ (binary_scalar first), bare _ (binary_scalar second)] at values
    exact ⟨values, same⟩

theorem ofExcept_ok {result : Except RuntimeError α} {value : α} {machine after : Machine}
    (ran : Eval.ofExcept result machine = .ok value after) : result = .ok value ∧ after = machine := by
  unfold Eval.ofExcept at ran
  cases result with
  | error error => cases ran
  | ok found =>
      cases ran
      exact ⟨rfl, rfl⟩

theorem EndsAlike.bind {action other : Eval α} {next behind : α → Eval β} {machine twin : Machine}
    (first : EndsAlike (action machine) (other twin))
    (rest : ∀ value after later, action machine = .ok value after → SameState after later →
      EndsAlike (next value after) (behind value later)) :
    EndsAlike ((action >>= next) machine) ((other >>= behind) twin) := by
  rw [bind_run, bind_run]
  cases one : action machine <;> cases two : other twin <;> rw [one, two] at first
  · rename_i value after result later
    obtain ⟨rfl, same⟩ := first
    exact rest _ after later one same
  · exact first.elim
  · exact first.elim
  · exact first

/-! ## Variables -/

section

variable {machine : Machine} {id : ScopeId} {value : Value} {mutable : Bool}

theorem lookup_found (found : machine.store.find? env name = some (id, ⟨value, mutable⟩)) :
    Eval.lookup env name location machine = .ok value (machine.met (.used env name location)) := by
  unfold Eval.lookup Store.get?
  rw [found]
  rfl

theorem assign_found (found : machine.store.find? env name = some (id, ⟨value, true⟩)) (new : Value) :
    Eval.assign env name new location machine = .ok ()
      { machine.met (.used env name location) with store := machine.store.write id name new } := by
  unfold Eval.assign Store.target
  rw [found]
  rfl

theorem evaluate_found (found : machine.store.find? env name = some (id, ⟨value, mutable⟩))
    (noPackage : ∀ ref, value ≠ .package ref) :
    Eval.evaluate limit (fuel + 1) env (.identifier name location) machine
      = .ok value (machine.met (.used env name location)) := by
  have looked : Eval.lookup? env name location machine = .ok (some value) (machine.met (.used env name location)) := by
    unfold Eval.lookup? Store.get?
    rw [found]
    rfl
  change (Eval.lookup? env name location >>= _) machine = _
  rw [bind_run, looked]
  cases value with
  | package ref => exact absurd rfl (noPackage ref)
  | _ => rfl

end

/-- The long form of a compound assignment. -/
def spelledOut (name : String) (op : BinaryOp) (expr : Expr) (here inner there : Location) : Stmt :=
  .assign [name] [.binary (.identifier name inner) op expr there] here

/-- The steps of the long form: the variable is read, and looked up again when it is written. -/
theorem spelledOut_eq {op : BinaryOp} (arithmetic : op.isArithmetic = true) (named : name ≠ blankName) {expr : Expr}
    {here inner there : Location} :
    Eval.statement limit (fuel + 4) env (spelledOut name op expr here inner there) = (do
      let current ← Eval.evaluate limit fuel env (.identifier name inner)
      let operand ← Eval.evaluate limit fuel env expr
      let updated ← Eval.ofExcept (Value.binary op current (written current operand (some expr)) there)
      Eval.storeValue env name updated none here
      pure .normal) := by
  have blank : (name == blankName) = false := by simpa using named
  have operation : Eval.evaluate limit (fuel + 1) env (.binary (.identifier name inner) op expr there) = (do
      let current ← Eval.evaluate limit fuel env (.identifier name inner)
      let operand ← Eval.evaluate limit fuel env expr
      Eval.ofExcept (Value.binary op current (written current operand (some expr)) there)) := by
    have split : ∀ current operand, Value.unify current (.identifier name inner) operand expr
        = (current, written current operand (some expr)) := fun current operand => by
      rw [unify_eq, written_plain rfl]
    cases op with
    | equal | notEqual | less | lessEqual | greater | greaterEqual | and | or => cases arithmetic
    | _ => simp only [Eval.evaluate, split]
  have source : (some (Expr.binary (.identifier name inner) op expr there)).any (·.isUntypedInteger) = false := by
    simp [Expr.isUntypedInteger]
  simp only [spelledOut, Eval.statement, Eval.values, Eval.eachValue, operation, bind_assoc, pure_bind, List.length_cons,
    List.length_nil, if_true, Eval.storeValues, blank, storeValue_eq, written_plain source,
    @written_plain none rfl, Bool.false_eq_true, if_false]

theorem storeValue_found {machine : Machine} {id : ScopeId} {old new : Value}
    (found : machine.store.find? env name = some (id, ⟨old, true⟩)) (same : new.kind = old.kind) (location : Location) :
    ∃ past, Eval.storeValue env name new none location machine
      = .ok () { machine with store := machine.store.write id name new, past } := by
  refine ⟨((machine.met (.used env name location)).met (.used env name location)).past, ?_⟩
  have still : (machine.met (.used env name location)).store.find? env name = some (id, ⟨old, true⟩) := found
  rw [storeValue_eq, bind_run, lookup_found found]
  dsimp only
  rw [@written_plain none rfl, if_pos same.symm, assign_found still new]
  rfl

/-! ## Both forms -/

section

variable {machine : Machine} {id : ScopeId} {value : Value} {op : BinaryOp} {expr : Expr} {here inner there : Location}

/-- Both forms of a compound assignment come to the same end, on a store that is tidy. -/
theorem compound_endsAlike (tidy : TidyStore machine.store) (within : Within machine.store.scopes.size env)
    (found : machine.store.find? env name = some (id, ⟨value, true⟩)) (named : name ≠ blankName)
    (noPackage : ∀ ref, value ≠ .package ref) (arithmetic : op.isArithmetic = true) (formed : Formed.expr expr)
    (location : Location) :
    EndsAlike (Eval.statement limit (fuel + 1) env (.compound name op expr location) machine)
      (Eval.statement limit (fuel + 4) env (spelledOut name op expr here inner there) machine) := by
  rw [compound_eq, spelledOut_eq arithmetic named, bind_run, bind_run, lookup_found found]
  cases fuel with
  | zero => exact ⟨rfl, rfl⟩
  | succ fuel =>
      rw [evaluate_found found noPackage]
      refine .bind (evaluate_same rfl) fun operand after later ran same => ?_
      -- the evaluation leaves the variable where it was, and its kind
      have tidyMet : TidyStore (machine.met (.used env name location)).store := tidy
      obtain ⟨now, still, kind, _⟩ := (evaluate_retains tidyMet within formed ran).find? within found
      refine .bind (ofExcept_binary op value _ _ _ same) fun updated last final computed both => ?_
      obtain ⟨result, rfl⟩ := ofExcept_ok computed
      have stillFinal : final.store.find? env name = some (id, ⟨now, true⟩) := by rw [both]; exact still
      obtain ⟨past, stores⟩ := storeValue_found stillFinal ((binary_kind arithmetic result).trans kind.symm) here
      rw [bind_run, bind_run, assign_found still, stores]
      refine ⟨rfl, ?_⟩
      rw [both]
      rfl

theorem floatOfInt_one : floatOfInt 1 = 1.0 := by
  have magnitude : (1 : Int64).toInt.natAbs = 1 := by decide
  have bits : Decimal.nearestBits 1 1 = 0x3FF0000000000000 := by decide
  unfold floatOfInt
  dsimp only
  rw [magnitude, bits, if_neg (by decide)]
  rfl

/-- The operator that an increment or a decrement stands for. -/
def stepOp (up : Bool) : BinaryOp := if up then .add else .subtract

theorem stepped_binary (name : String) (number : value.kind = .int ∨ value.kind = .float) (up : Bool) (location there : Location) :
    ∃ new, Eval.stepped name up location value = pure new ∧
      Value.binary (stepOp up) value (written value (.int 1) (some (.integer 1))) there = .ok new := by
  cases value with
  | int n => cases up <;> exact ⟨_, rfl, rfl⟩
  | float x =>
      have one : written (.float x) (.int 1) (some (.integer 1)) = .float 1.0 := by
        rw [← floatOfInt_one]
        rfl
      rw [one]
      cases up <;> exact ⟨_, rfl, rfl⟩
  | _ => rcases number with number | number <;> cases number

theorem step_eq {up : Bool} : Eval.statement limit (fuel + 1) env (.step name up location) = (do
    let current ← Eval.lookup env name location
    let updated ← Eval.stepped name up location current
    Eval.assign env name updated location
    pure .normal) := rfl

theorem step_endsAlike (found : machine.store.find? env name = some (id, ⟨value, true⟩))
    (number : value.kind = .int ∨ value.kind = .float) (up : Bool) (location : Location) :
    EndsAlike (Eval.statement limit (fuel + 1) env (.step name up location) machine)
      (Eval.statement limit (fuel + 2) env (.compound name (stepOp up) (.integer 1) here) machine) := by
  obtain ⟨new, steps, computes⟩ := stepped_binary name number up location here
  have one : Eval.evaluate limit (fuel + 1) env (.integer 1) = pure (.int 1) := rfl
  have adds : Eval.ofExcept (Except.ok new) = pure new := rfl
  have still : ∀ there, (machine.met (.used env name there)).store.find? env name = some (id, ⟨value, true⟩) := fun _ => found
  rw [step_eq, compound_eq, bind_run, bind_run, lookup_found found, lookup_found found]
  dsimp only
  rw [steps, one, pure_bind, pure_bind, computes, adds, pure_bind, bind_run, bind_run,
    assign_found (still _) new, assign_found (still _) new]
  exact ⟨rfl, rfl⟩

end

/-- Compound assignments and increments are shorthands, in every state that a session of an accepted program
comes to. A run of the long form takes three steps more, and one that adds one takes one step more. -/
theorem compound_assignment_shorthand {bound : Nat} {settings : Settings} {output : Output} {entry : String}
    {packages : List Package} {session : Session} {given : List Value} {machine : Machine} {id : ScopeId} {value : Value}
    (accepted : Accepted packages) (reached : Reached bound settings output entry packages session given)
    (seen : Seen session machine.store) (within : Within machine.store.scopes.size env)
    (found : machine.store.find? env name = some (id, ⟨value, true⟩)) (limit fuel : Nat) (location : Location) :
    (∀ op expr here inner there, op.isArithmetic = true → Formed.expr expr →
      EndsAlike (Eval.statement limit (fuel + 1) env (.compound name op expr location) machine)
        (Eval.statement limit (fuel + 4) env (spelledOut name op expr here inner there) machine)) ∧
    (value.kind = .int ∨ value.kind = .float → ∀ up here,
      EndsAlike (Eval.statement limit (fuel + 1) env (.step name up location) machine)
        (Eval.statement limit (fuel + 2) env (.compound name (stepOp up) (.integer 1) here) machine)) := by
  obtain ⟨world, imports, loaded, _⟩ := accepted.known reached
  obtain ⟨slot, known, holds⟩ := (loaded.agrees seen).2 id name _ (Store.found_in_scope found)
  have noPackage : ∀ ref, value ≠ .package ref := fun ref same =>
    Bool.noConfusion ((holds.stored loaded.inv.typed.sane known).2.2 ref same).1
  have named : name ≠ blankName := by
    rintro rfl
    rw [loaded.inv.typed.sane.blank] at known
    cases known
  exact ⟨fun op expr here inner there arithmetic formed =>
    compound_endsAlike (reached.tidyStore accepted seen) within found named noPackage arithmetic formed location,
    fun number up here => step_endsAlike found number up location⟩

/-! ## A variable that its operand writes -/

namespace Overwritten

/-- The operand of a compound assignment is a call of a function that writes the variable. -/
def source : String :=
  "package main\nfunc Main() int \x7b\n\tx := 1\n\tg := func() int \x7b\n\t\tx = 7\n\t\treturn 2\n\t\x7d\n\tx += g()\n\treturn x\n\x7d\n"

def operand : Expr := .call (.identifier "g" ⟨8, 7⟩) [] ⟨8, 8⟩

/-- What `source` is read as. -/
def package : Package := ⟨"main", "main", [⟨"main.go", ⟨"main", [], [
  .function "Main" ⟨⟨[], [.int], []⟩, [
    .define ["x"] [.integer 1] ⟨3, 2⟩,
    .define ["g"] [.function ⟨⟨[], [.int], []⟩, [
      .assign ["x"] [.integer 7] ⟨5, 3⟩,
      .return [.integer 2] ⟨6, 3⟩], ⟨4, 7⟩⟩] ⟨4, 2⟩,
    .compound "x" .add operand ⟨8, 2⟩,
    .return [.identifier "x" ⟨9, 9⟩] ⟨9, 2⟩], ⟨2, 1⟩⟩]⟩⟩]⟩

/-- The session that `package` is loaded into. -/
@[irreducible] def loaded : Session := behind (loadPackages 100 .default .empty "main" [package])

/-- The session behind a call of `Main`. -/
@[irreducible] def called : Session := behind (Session.invoke "main" "Main" [] loaded)

/-- The scopes of the body of `Main`. -/
def scopes : Env := [4, 3, 2, 0]

/-- The state behind the call; nothing depends on the events that led to it. -/
def start : Machine := { called.machine with past := fun _ _ => False }

@[irreducible] def added : Machine := behind (Eval.statement 10 12 scopes (.compound "x" .add operand ⟨8, 2⟩) start)

theorem formed : Formed.expr operand := by
  have name : IsName "g" := ⟨⟨'g', [], rfl, rfl, fun _ member => absurd member List.not_mem_nil⟩, by decide⟩
  exact ⟨name, trivial⟩

theorem outcomes :
    value? (loadPackages 100 .default .empty "main" [package]) = some () ∧
    (value? (Session.invoke "main" "Main" [] loaded)).map (·.map int?) = some [some 3] ∧
    (start.store.find? scopes "x").map (fun (id, binding) => (id, int? binding.value, binding.mutable))
      = some (4, some 3, true) ∧
    (added.store.find? scopes "x").map (fun (id, binding) => (id, int? binding.value, binding.mutable))
      = some (4, some 5, true) ∧
    ∀ id ∈ scopes, id < start.store.scopes.size := by
  decide +kernel

theorem started : loadPackages 100 .default .empty "main" [package] = .ok () loaded := by
  unfold loaded
  exact ok_of_value? outcomes.1

theorem ran : Session.invoke "main" "Main" [] loaded = .ok [.int 3] called := by
  unfold called
  exact ok_of_int outcomes.2.1

theorem holds : start.store.find? scopes "x" = some (4, ⟨.int 3, true⟩) := find?_of_int outcomes.2.2.1

theorem within : Within start.store.scopes.size scopes := outcomes.2.2.2.2

theorem adds : Eval.statement 10 12 scopes (.compound "x" .add operand ⟨8, 2⟩) start = .ok .normal added := by
  unfold added start called loaded package operand scopes
  cbv

theorem holdsAfter : added.store.find? scopes "x" = some (4, ⟨.int 5, true⟩) := find?_of_int outcomes.2.2.2.1

theorem accepted : Accepted [package] := by
  refine ⟨.empty, "main", _, ⟨none, [package]⟩, .source "main" "main.go" source (.empty none), ?_⟩
  unfold source package operand
  cbv

end Overwritten

open Overwritten in
/-- The function that the operand calls writes seven, and both forms add two to three. -/
theorem overwritten_variable_added :
    Accepted [package] ∧ Reached 100 .default .empty "main" [package] called [.int 3] ∧
    Seen called start.store ∧ Within start.store.scopes.size scopes ∧
    start.store.find? scopes "x" = some (4, ⟨.int 3, true⟩) ∧ BinaryOp.add.isArithmetic = true ∧ Formed.expr operand ∧
    (Value.int 3).kind = .int ∧
    Eval.statement 10 12 scopes (.compound "x" .add operand ⟨8, 2⟩) start = .ok .normal added ∧
    added.store.find? scopes "x" = some (4, ⟨.int 5, true⟩) ∧
    EndsAlike (.ok .normal added)
      (Eval.statement 10 15 scopes (spelledOut "x" .add operand ⟨8, 2⟩ ⟨8, 6⟩ ⟨8, 8⟩) start) ∧
    EndsAlike (Eval.statement 10 12 scopes (.step "x" true ⟨8, 2⟩) start)
      (Eval.statement 10 13 scopes (.compound "x" .add (.integer 1) ⟨8, 2⟩) start) := by
  have reached : Reached 100 .default .empty "main" [package] called [.int 3] :=
    (Reached.loaded started).returned (fun _ member => absurd member List.not_mem_nil) ran
  have seen : Seen called start.store := Or.inl rfl
  obtain ⟨compound, steps⟩ := compound_assignment_shorthand accepted reached seen within holds 10 11 ⟨8, 2⟩
  refine ⟨accepted, reached, Or.inl rfl, within, holds, rfl, formed, rfl, adds, holdsAfter, ?_,
    steps (Or.inl rfl) true ⟨8, 2⟩⟩
  rw [← adds]
  exact compound .add operand ⟨8, 2⟩ ⟨8, 6⟩ ⟨8, 8⟩ rfl formed

end MiniGo.Running
