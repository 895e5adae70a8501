import MiniGo.Proofs.Running.Values

/-!
# Reading, writing and binding names

What the steps of the evaluator on names keep: reading and assigning a resolved name, declaring names
one after another, binding parameters and results, and taking named results.
-/

namespace MiniGo.Running

open Lexical

variable {program : Nat → Facts} {calls : CallStack} {top : Option ScopeId} {world : World}
  {package : Nat} {context : Context} {env : Env}

/-- A name leads to a value: a variable has a valid value of its kind, and an import has the package
that the checker found. -/
def Leads (program : Nat → Facts) (package : Nat) (world : World) (env : Env) (name : String)
    (meaning : Meaning) (value : Value) : Prop :=
  ∃ id slot, world.find? env name = some (id, slot) ∧ world.slot id name = some slot ∧
    match slot with
    | .value kind _ => value.kind = kind ∧ Valid program world value
    | .package ref => value = .package ref ∧ Means (program package) world id name meaning

/-- Values that are valid. -/
def AllValid (program : Nat → Facts) (world : World) (values : List Value) : Prop :=
  ∀ value ∈ values, Valid program world value

/-- Values that may be given to code. -/
def AllOffered (program : Nat → Facts) (world : World) (values : List Value) : Prop :=
  ∀ value ∈ values, Offered program world value

/-- Evaluated expressions whose values are valid. -/
def AllReceived (program : Nat → Facts) (world : World) (received : List (Value × Option Expr)) : Prop :=
  ∀ pair ∈ received, Valid program world pair.1

/-- Values that fit types, one for each. -/
def Conform (values : List Value) (types : List Ty) : Prop :=
  List.Forall₂ (fun value type => value.conformsTo type = true) values types

theorem AllValid.grows {later : World} {values : List Value} (grows : Grows top world later)
    (valid : AllValid program world values) : AllValid program later values :=
  fun value member => (valid value member).grows grows

theorem AllOffered.grows {later : World} {values : List Value} (grows : Grows top world later)
    (offered : AllOffered program world values) : AllOffered program later values :=
  fun value member => Offered.grows grows (offered value member)

theorem AllReceived.grows {later : World} {received : List (Value × Option Expr)}
    (grows : Grows top world later) (valid : AllReceived program world received) :
    AllReceived program later received :=
  fun pair member => (valid pair member).grows grows

namespace Keeps

/-! ## Reading -/

theorem leads_of_typed {store : Store} (typed : Typed program world store) {name : String}
    {location : Location} {meaning : Meaning} (fits : Fits program world package context env)
    (used : Used (program package) context name location meaning) :
    ∃ value, store.get? env name = some value ∧ Leads program package world env name meaning value := by
  obtain ⟨use, position, id, slot, _, found, ready, late⟩ := used_touches typed fits used
  obtain ⟨binding, same, holds, bound, known⟩ := typed.find? found
  refine ⟨binding.value, by rw [Store.get?, same]; rfl, id, slot, found, known, ?_⟩
  cases slot with
  | value kind mutable =>
      exact ⟨holds.1, typed.valid id name binding kind mutable bound known ready⟩
  | package ref =>
      rcases late with ⟨_, means⟩ | ⟨_, kind, mutable, absurd⟩
      · exact ⟨holds.1, means⟩
      · exact nomatch absurd

theorem used_good {machine : Machine} {name : String} {location : Location} {meaning : Meaning}
    (inv : Inv program world machine) (fits : Fits program world package context env)
    (used : Used (program package) context name location meaning) :
    Inv program world (machine.met (.used env name location)) := by
  obtain ⟨use, position, _, _, touches, _⟩ := used_touches inv.typed fits used
  exact met inv ⟨package, use, position, touches⟩

theorem lookup? {name : String} {location : Location} {meaning : Meaning}
    (fits : Fits program world package context env)
    (used : Used (program package) context name location meaning) :
    Keeps program calls top world (Eval.lookup? env name location)
      (fun later found => world = later ∧ ∃ value, found = some value ∧
        Leads program package world env name meaning value) := by
  intro machine inv same
  obtain ⟨value, found, leads⟩ := leads_of_typed inv.typed fits used
  exact ⟨same, world, Grows.refl top world, used_good inv fits used, rfl, value, found, leads⟩

theorem lookup {name : String} {location : Location} {meaning : Meaning}
    (fits : Fits program world package context env)
    (used : Used (program package) context name location meaning) :
    Keeps program calls top world (Eval.lookup env name location)
      (fun later value => world = later ∧ Leads program package world env name meaning value) := by
  intro machine inv same
  obtain ⟨value, found, leads⟩ := leads_of_typed inv.typed fits used
  unfold Eval.lookup
  rw [found]
  exact ⟨same, world, Grows.refl top world, used_good inv fits used, rfl, leads⟩

/-- A name behind a point is found in the package that the checker found it in. -/
theorem selects {store : Store} (typed : Typed program world store) {name member path : String}
    {location : Location} (fits : Fits program world package context env)
    (used : Used (program package) context name location (.package path))
    (shows : (program package).Shows path member) (exported : isExported member = true) :
    ∃ use position, Touches (program package) world package store env name location use position ∧
      Selects store env name member use position := by
  obtain ⟨use, position, id, slot, touches, found, ready, late⟩ := used_touches typed fits used
  obtain ⟨binding, same, holds, bound, known⟩ := typed.find? found
  have value : store.get? env name = some binding.value := by rw [Store.get?, same]; rfl
  refine ⟨use, position, touches, exported, fun right => ?_, fun wrong ref => ?_⟩
  · rcases late with ⟨_, ref, slot', members⟩ | ⟨less, _⟩
    · obtain rfl : slot = .package ref := Option.some.inj (known.symm.trans slot')
      obtain ⟨readyMember, kind, mutable, slotMember⟩ := members member shows exported
      obtain ⟨other, boundMember⟩ := typed.bound ref.scope member _ slotMember
      refine ⟨ref, other.value, by rw [value, holds.1], ?_⟩
      rw [Store.getLocal?_cons, boundMember]
      rfl
    · omega
  · rcases late with ⟨equal, _⟩ | ⟨_, kind, mutable, rfl⟩
    · omega
    · rw [value]
      intro isPackage
      have storable := typed.sane.storable id name kind mutable known
      rw [← holds.1, Option.some.inj isPackage] at storable
      exact nomatch storable

theorem qualified {name member path : String} {location : Location}
    (fits : Fits program world package context env)
    (used : Used (program package) context name location (.package path))
    (shows : (program package).Shows path member) (exported : isExported member = true) :
    Keeps program calls none world (Eval.qualified env name member location)
      (fun later value => Valid program later value) := by
  unfold Eval.qualified
  refine (meet fun store typed => ?_).bind ?_
  · obtain ⟨use, position, touches, selects⟩ := selects typed fits used shows exported
    exact ⟨package, use, position, touches, selects⟩
  rintro _ _ _ rfl
  refine (lookup? fits used).bind ?_
  rintro _ _ _ ⟨rfl, value, rfl, id, slot, _, known, leads⟩
  cases slot with
  | package ref =>
      obtain ⟨rfl, other, known', members⟩ := leads
      obtain rfl : ref = other := by
        cases known.symm.trans known'
        rfl
      obtain ⟨ready, kind, mutable, slotMember⟩ := members member shows exported
      simp only [exported, if_true]
      refine (lookupLocal? slotMember ready).bind ?_
      rintro _ _ _ ⟨rfl, value, rfl, _, valid⟩
      exact .pure valid
  | value kind mutable =>
      obtain ⟨_, valid⟩ := leads
      cases value with
      | package ref => exact nomatch valid.1
      | _ => exact .fail trivial

/-! ## Writing -/

theorem assign {name : String} {value : Value} {location : Location} {meaning : Meaning}
    (fits : Fits program world package context env)
    (used : Used (program package) context name location meaning)
    (valid : Valid program world value)
    (alike : ∀ id kind mutable, world.find? env name = some (id, .value kind mutable) →
      value.kind = kind) :
    Keeps program calls top world (Eval.assign env name value location) (fun _ _ => True) := by
  intro machine inv same
  have met := used_good inv fits used
  obtain ⟨use, position, id, slot, _, found, _, _⟩ := used_touches inv.typed fits used
  obtain ⟨binding, means, holds, bound, known⟩ := inv.typed.find? found
  unfold Eval.assign Store.target
  rw [means]
  cases mutable : binding.mutable with
  | false =>
      simp only [mutable]
      exact ⟨trivial, world, Grows.refl top world, met⟩
  | true =>
      simp only [mutable]
      cases slot with
      | package ref =>
          have immutable := holds.2
          rw [mutable] at immutable
          exact nomatch immutable
      | value kind writable =>
          obtain rfl : true = writable := mutable.symm.trans holds.2
          exact ⟨same, world, Grows.refl top world,
            ⟨inv.typed.write known (alike id kind true found) valid, met.past, met.once⟩, trivial⟩

theorem storeValue {name : String} {value : Value} {source : Option Expr} {location : Location}
    {meaning : Meaning} (fits : Fits program world package context env)
    (used : Used (program package) context name location meaning)
    (valid : Valid program world value) :
    Keeps program calls none world (Eval.storeValue env name value source location)
      (fun _ _ => True) := by
  unfold Eval.storeValue
  refine (lookup fits used).bind ?_
  rintro _ current _ ⟨rfl, leads⟩
  have stored : ∀ written : Value, Valid program world written →
      Keeps program calls none world
        (if current.kind = written.kind then Eval.assign env name written location
          else Eval.fail (.mismatch (.stored written.kind current.kind) location))
        (fun _ _ => True) := by
    intro written validWritten
    split
    · rename_i alike
      refine assign fits used validWritten fun id kind mutable found => ?_
      obtain ⟨other, slot, foundToo, _, leads⟩ := leads
      cases found.symm.trans foundToo
      exact alike.symm.trans leads.1
    · exact .fail trivial
  cases current with
  | float => exact stored _ (valid.coerce source .float)
  | _ => exact stored _ valid

theorem storeValues {location : Location} {targets : List String}
    {received : List (Value × Option Expr)} (fits : Fits program world package context env)
    (assigned : Assigned (program package) context location targets)
    (valid : AllReceived program world received) :
    Keeps program calls none world (Eval.storeValues env location targets received)
      (fun _ _ => True) := by
  induction targets generalizing world received with
  | nil => exact .pure trivial
  | cons name targets ih =>
      cases received with
      | nil => exact .pure trivial
      | cons pair received =>
          obtain ⟨value, source⟩ := pair
          have first := valid (value, source) (by simp)
          have others : AllReceived program world received :=
            fun pair member => valid pair (by simp [member])
          have rest := fun other member => assigned other (List.mem_cons_of_mem name member)
          unfold Eval.storeValues
          dsimp only
          split
          · exact ih fits rest others
          · rename_i named
            have used := assigned name (by simp) (by simpa using named)
            refine (storeValue fits used first).bind fun later _ grows _ => ?_
            exact ih (fits.grows_none grows) rest (others.grows grows)

theorem stepped {name : String} {up : Bool} {location : Location} {value : Value} :
    Keeps program calls top world (Eval.stepped name up location value)
      (fun later updated => updated.kind = value.kind ∧ Valid program later updated) := by
  cases value with
  | int => exact .pure ⟨rfl, valid_of_scalar rfl⟩
  | float => exact .pure ⟨rfl, valid_of_scalar rfl⟩
  | _ => exact .fail trivial

/-! ## Declaring -/

/-- Of the names of a short declaration, the new ones are bound and the others are assigned. -/
theorem defineValues {location : Location} {names : List String}
    {received : List (Value × Option Expr)} (fits : Fits program world package context env)
    (owned : Owned context) (defines : Defines (program package) location context names)
    (count : received.length = names.length) (valid : AllReceived program world received) :
    Keeps program calls env.head? world (Eval.defineValues env location names received)
      (fun later _ => Fits program later package (context.addAll names) env) := by
  -- Along the names: a blank one drops its value, one that is here already is assigned, any other is bound.
  induction names generalizing world context received with
  | nil => exact .pure fits
  | cons name names ih =>
      cases received with
      | nil => exact nomatch count
      | cons pair received =>
          obtain ⟨value, source⟩ := pair
          obtain ⟨first, rest⟩ := defines
          have validFirst := valid (value, source) (by simp)
          have others : AllReceived program world received :=
            fun pair member => valid pair (by simp [member])
          have fewer : received.length = names.length := Nat.succ.inj count
          unfold Eval.defineValues
          dsimp only
          split
          · rename_i blank
            obtain rfl : name = blankName := by simpa using blank
            rw [add_blank] at rest
            change Keeps _ _ _ _ _ fun later _ =>
              Fits program later package ((context.add blankName).addAll names) env
            rw [add_blank]
            exact ih fits owned rest fewer others
          · rename_i named
            have named : name ≠ blankName := by simpa using named
            refine (hasLocal fits owned name).bind ?_
            rintro _ _ _ ⟨rfl, rfl⟩
            split
            · rename_i here
              -- The run and the checker agree on what is here, so the checker has seen an assignment.
              have gets : ¬ Gets (program package) context name := by
                rintro (blank | ⟨free, _⟩)
                · exact named blank
                · rw [free] at here
                  exact nomatch here
              obtain ⟨isValue, used⟩ := first.resolve_left gets
              rw [add_of_here isValue] at rest
              change Keeps _ _ _ _ _ fun later _ =>
                Fits program later package ((context.add name).addAll names) env
              rw [add_of_here isValue]
              refine (storeValue fits used validFirst).seq fun later _ grows _ => ?_
              exact ih (fits.grows_none grows) owned rest fewer (others.grows grows)
            · rename_i free
              have gets : Gets (program package) context name := by
                refine first.resolve_right fun isValue => ?_
                rw [isValue.1] at free
                exact free rfl
              have binds : Keeps program calls env.head? world (Eval.bind env name value true) _ :=
                bindTyped fits owned gets validFirst nofun
              refine binds.bind fun later _ grows bound => ?_
              exact ih bound.1 (owned.add name) rest fewer (others.grows grows)

end Keeps

end MiniGo.Running
