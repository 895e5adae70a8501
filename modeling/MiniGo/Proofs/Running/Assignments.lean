import MiniGo.Proofs.Running.Confined
import MiniGo.Proofs.Running.Typing

/-!
# Assignments to several names

An assignment evaluates all values first (`Gathered`) and then writes one name after the other, each
found anew. When the names are different, no write gets in the way of another: `AssignedAll` and `DefinedAll`
say what the store holds at the end by the store in front of the first write alone.
-/

namespace MiniGo.Running

variable {limit fuel : Nat} {env outer : Env} {id : ScopeId} {names : List String}
  {received : List (Value × Option Expr)} {location : Location}

/-! ## Values -/

/-- Expressions are evaluated one after the other, each to a value of its own. -/
inductive InTurn (limit : Nat) (env : Env) :
    List Expr → Machine → List (Value × Option Expr) → Machine → Prop
  | none {machine : Machine} : InTurn limit env [] machine [] machine
  | next {fuel : Nat} {expr : Expr} {rest : List Expr} {value : Value}
      {others : List (Value × Option Expr)} {before middle after : Machine}
      (ran : Eval.evaluate limit fuel env expr before = .ok value middle)
      (behind : InTurn limit env rest middle others after) :
      InTurn limit env (expr :: rest) before ((value, some expr) :: others) after

/-- The values on the right of an assignment: a call that stands alone gives all of its results, and
other expressions are evaluated in turn. A value comes with its expression if that is its own. -/
inductive Gathered (limit : Nat) (env : Env) :
    List Expr → Machine → List (Value × Option Expr) → Machine → Prop
  | one {fuel : Nat} {callee : Expr} {args : List Expr} {location : Location} {value : Value}
      {before after : Machine}
      (ran : Eval.call limit fuel env callee args location before = .ok [value] after) :
      Gathered limit env [.call callee args location] before
        [(value, some (.call callee args location))] after
  | spread {fuel : Nat} {callee : Expr} {args : List Expr} {location : Location} {results : List Value}
      {before after : Machine}
      (ran : Eval.call limit fuel env callee args location before = .ok results after)
      (several : results.length ≠ 1) :
      Gathered limit env [.call callee args location] before (results.map fun value => (value, none)) after
  | each {exprs : List Expr} {received : List (Value × Option Expr)} {before after : Machine}
      (plain : ∀ callee args location, exprs ≠ [.call callee args location])
      (ran : InTurn limit env exprs before received after) : Gathered limit env exprs before received after

theorem eachValue_inTurn {exprs : List Expr} {before after : Machine}
    (ran : Eval.eachValue limit fuel env exprs before = .ok received after) :
    InTurn limit env exprs before received after := by
  induction exprs generalizing fuel received before with
  | nil =>
      cases fuel with
      | zero => exact nomatch ran
      | succ fuel =>
          obtain ⟨rfl, rfl⟩ := EStateM.Result.ok.inj ran
          exact .none
  | cons expr rest ih =>
      cases fuel with
      | zero => exact nomatch ran
      | succ fuel =>
          obtain ⟨value, middle, first, ran⟩ := eval_bind_ok ran
          obtain ⟨others, last, behind, ran⟩ := eval_bind_ok ran
          obtain ⟨rfl, rfl⟩ := EStateM.Result.ok.inj ran
          exact .next first (ih behind)

theorem values_gathered {exprs : List Expr} {before after : Machine}
    (ran : Eval.values limit fuel env exprs before = .ok received after) :
    Gathered limit env exprs before received after := by
  cases fuel with
  | zero => exact nomatch ran
  | succ fuel =>
      unfold Eval.values at ran
      split at ran
      · obtain ⟨results, middle, called, ran⟩ := eval_bind_ok ran
        split at ran
        · obtain ⟨rfl, rfl⟩ := EStateM.Result.ok.inj ran
          exact .one called
        · rename_i several
          obtain ⟨rfl, rfl⟩ := EStateM.Result.ok.inj ran
          refine .spread called fun single => ?_
          obtain ⟨value, rfl⟩ := List.length_eq_one_iff.mp single
          exact several value rfl
      · rename_i plain
        exact .each plain (eachValue_inTurn ran)

/-! ## Single writes -/

/-- What is written over a value: an integer becomes a float over a float if its own expression is an
untyped integer. -/
def written (old value : Value) (source : Option Expr) : Value :=
  match old, value with
  | .float _, .int n => if source.any (·.isUntypedInteger) then .float (floatOfInt n) else .int n
  | _, value => value

theorem written_eq (old value : Value) (source : Option Expr) :
    written old value source = if old.kind = .float then value.coerce source .float else value := by
  cases old <;> cases value <;> rfl

theorem written_plain {source : Option Expr} (typed : source.any (·.isUntypedInteger) = false) (old value : Value) :
    written old value source = value := by
  rw [written_eq]
  split
  · cases value <;> simp only [Value.coerce, typed, Bool.false_eq_true, if_false]
  · rfl

/-- Operands beside each other are converted as if each were written over the other. -/
theorem unify_eq (left : Value) (leftExpr : Expr) (right : Value) (rightExpr : Expr) :
    Value.unify left leftExpr right rightExpr
      = (written right left (some leftExpr), written left right (some rightExpr)) := by
  cases left <;> cases right <;> rfl

/-- Two machines differ in their stores at most, and in the events that they remember. -/
def SameApart (before after : Machine) : Prop :=
  after = { before with store := after.store, past := after.past }

theorem SameApart.refl (machine : Machine) : SameApart machine machine := rfl

theorem SameApart.trans {first second third : Machine} (one : SameApart first second)
    (two : SameApart second third) : SameApart first third := by
  rw [SameApart] at one two ⊢
  rw [two, one]

theorem storeValue_eq {name : String} {value : Value} {source : Option Expr} :
    Eval.storeValue env name value source location = (do
      let current ← Eval.lookup env name location
      if current.kind = (written current value source).kind then
        Eval.assign env name (written current value source) location
      else Eval.fail (.mismatch (.stored (written current value source).kind current.kind) location)) := by
  unfold Eval.storeValue
  refine congrArg (Eval.lookup env name location >>= ·) (funext fun current => ?_)
  cases current <;> cases value <;> rfl

/-- A compound assignment converts its operand as if it were written over the variable. -/
theorem compound_eq {name : String} {op : BinaryOp} {expr : Expr} :
    Eval.statement limit (fuel + 1) env (.compound name op expr location) = (do
      let current ← Eval.lookup env name location
      let operand ← Eval.evaluate limit fuel env expr
      let updated ← Eval.ofExcept (Value.binary op current (written current operand (some expr)) location)
      Eval.assign env name updated location
      pure .normal) := by
  refine congrArg (Eval.lookup env name location >>= ·) (funext fun current => ?_)
  refine congrArg (Eval.evaluate limit fuel env expr >>= ·) (funext fun operand => ?_)
  cases current <;> cases operand <;> rfl

theorem storeValue_ok {name : String} {value : Value} {source : Option Expr} {before after : Machine}
    (ran : Eval.storeValue env name value source location before = .ok () after) :
    SameApart before after ∧ ∃ id old, before.store.find? env name = some (id, ⟨old, true⟩) ∧
      after.store = before.store.write id name (written old value source) ∧ (written old value source).kind = old.kind := by
  rw [storeValue_eq] at ran
  obtain ⟨current, middle, looked, ran⟩ := eval_bind_ok ran
  unfold Eval.lookup at looked
  split at looked
  · rename_i found
    obtain ⟨rfl, rfl⟩ := EStateM.Result.ok.inj looked
    split at ran
    · rename_i kind
      obtain ⟨⟨id, old, mutable⟩, known, rfl⟩ := Option.map_eq_some_iff.mp found
      unfold Eval.assign Store.target at ran
      simp only [Machine.met, known] at ran
      cases mutable with
      | false => cases ran
      | true =>
          obtain ⟨_, rfl⟩ := EStateM.Result.ok.inj ran
          exact ⟨rfl, id, old, known, rfl, kind.symm⟩
    · cases ran
  · cases looked

/-! ## Writes in a row -/

/-- The names but the blank one are different. -/
def Distinct (names : List String) : Prop := (names.filter (· != blankName)).Nodup

instance : Decidable (Distinct names) := inferInstanceAs (Decidable (List.Nodup _))

theorem Distinct.tail {name : String} (distinct : Distinct (name :: names)) : Distinct names :=
  distinct.sublist ((List.sublist_cons_self name names).filter _)

theorem Distinct.head {name : String} (distinct : Distinct (name :: names)) (named : name ≠ blankName) :
    name ∉ names := by
  intro member
  unfold Distinct at distinct
  rw [List.filter_cons_of_pos (by simpa using named)] at distinct
  exact (List.nodup_cons.mp distinct).1 (List.mem_filter.mpr ⟨member, by simpa using named⟩)

/-- What an assignment does to a store: the nearest binding of each name holds its value, and all other
bindings are as they were. -/
structure AssignedAll (env : Env) (names : List String) (received : List (Value × Option Expr))
    (before after : Store) : Prop where
  size : after.scopes.size = before.scopes.size
  written : ∀ name value source, (name, value, source) ∈ names.zip received → name ≠ blankName →
    ∃ id old, before.find? env name = some (id, ⟨old, true⟩) ∧
      (after.scope id).find? name = some ⟨written old value source, true⟩
  kept : ∀ id name,
    (name ∈ names → name ≠ blankName → ∀ binding, before.find? env name ≠ some (id, binding)) →
    (after.scope id).find? name = (before.scope id).find? name

/-- What a short declaration does to a store: each name is bound in the scope where it stands, to its
value, which is written over the old one if there is one; all other bindings are as they were. -/
structure DefinedAll (id : ScopeId) (names : List String) (received : List (Value × Option Expr))
    (before after : Store) : Prop where
  size : after.scopes.size = before.scopes.size
  written : ∀ name value source, (name, value, source) ∈ names.zip received → name ≠ blankName →
    (after.scope id).find? name = some
      ⟨match (before.scope id).find? name with
        | some binding => written binding.value value source
        | none => value, true⟩
  kept : ∀ other name, (other = id → name ∈ names → name = blankName) →
    (after.scope other).find? name = (before.scope other).find? name

section

variable {first middle last : Store} {name : String} {value : Value} {source : Option Expr}

/-- The blank name takes its value and drops it. -/
theorem AssignedAll.skip (assigned : AssignedAll env names received first last) :
    AssignedAll env (blankName :: names) ((value, source) :: received) first last where
  size := assigned.size
  written target new origin member named := by
    rcases List.mem_cons.mp member with here | behind
    · obtain ⟨rfl, _⟩ := Prod.mk.inj here
      exact absurd rfl named
    · exact assigned.written target new origin behind named
  kept id x unwritten := assigned.kept id x fun inside => unwritten (List.mem_cons_of_mem _ inside)

/-- The write of one name does not change what the names behind it mean, since they are others. -/
theorem AssignedAll.cons {id : ScopeId} {old : Value} (real : name ≠ blankName) (fresh : name ∉ names)
    (known : first.find? env name = some (id, ⟨old, true⟩))
    (writes : middle = first.write id name (Running.written old value source))
    (assigned : AssignedAll env names received middle last) :
    AssignedAll env (name :: names) ((value, source) :: received) first last := by
  have bound := Store.found_in_scope known
  -- A write to one name leaves the others where they were found, and later writes leave this one alone.
  have apart : ∀ x, x ≠ name → middle.find? env x = first.find? env x :=
    fun x different => Store.find?_congr fun other => by rw [writes, Store.find?_write_of_ne bound different]
  have still : ∀ other, (last.scope other).find? name = (middle.scope other).find? name :=
    fun other => assigned.kept other name fun inside => absurd inside fresh
  refine ⟨?_, fun target new origin member named => ?_, fun other x unwritten => ?_⟩
  · rw [assigned.size, writes, Store.write, Store.size_modify]
  · rcases List.mem_cons.mp member with here | behind
    · obtain ⟨rfl, both⟩ := Prod.mk.inj here
      obtain ⟨rfl, rfl⟩ := Prod.mk.inj both
      refine ⟨id, old, known, ?_⟩
      rw [still, writes, Store.find?_write bound, if_pos ⟨rfl, rfl⟩]
    · have different : target ≠ name := by
        rintro rfl
        exact fresh (List.of_mem_zip behind).1
      rw [← apart target different]
      exact assigned.written target new origin behind named
  · by_cases here : x = name
    · subst here
      have elsewhere : other ≠ id := by
        rintro rfl
        exact unwritten List.mem_cons_self real _ known
      rw [still, writes, Store.find?_write bound, if_neg fun both => elsewhere both.1]
    · rw [assigned.kept other x fun inside named => by
        rw [apart x here]
        exact unwritten (List.mem_cons_of_mem _ inside) named]
      rw [writes, Store.find?_write_of_ne bound here]

end

theorem storeValues_assigned {before after : Machine} (distinct : Distinct names)
    (count : received.length = names.length)
    (ran : Eval.storeValues env location names received before = .ok () after) :
    SameApart before after ∧ AssignedAll env names received before.store after.store := by
  induction names generalizing received before with
  | nil =>
      obtain rfl := List.length_eq_zero_iff.mp count
      obtain ⟨_, rfl⟩ := EStateM.Result.ok.inj ran
      exact ⟨.refl _, rfl, fun _ _ _ member => absurd member List.not_mem_nil, fun _ _ _ => rfl⟩
  | cons name names ih =>
      cases received with
      | nil => exact nomatch count
      | cons pair received =>
          obtain ⟨value, source⟩ := pair
          rw [Eval.storeValues] at ran
          by_cases blank : name = blankName
          · rw [if_pos (by simpa using blank)] at ran
            obtain ⟨same, assigned⟩ := ih distinct.tail (Nat.succ.inj count) ran
            subst blank
            exact ⟨same, assigned.skip⟩
          · rw [if_neg (by simpa using blank)] at ran
            obtain ⟨_, middle, stored, ran⟩ := eval_bind_ok ran
            obtain ⟨sameFirst, id, old, known, writes, _⟩ := storeValue_ok stored
            obtain ⟨same, assigned⟩ := ih distinct.tail (Nat.succ.inj count) ran
            exact ⟨sameFirst.trans same, assigned.cons blank (distinct.head blank) known writes⟩

/-- The store after one name of a short declaration. -/
structure DefinedOne (id : ScopeId) (name : String) (value : Value) (source : Option Expr)
    (before after : Store) : Prop where
  size : after.scopes.size = before.scopes.size
  slots : ∀ other x, (after.scope other).find? x = if other = id ∧ x = name then some
    ⟨match (before.scope id).find? name with
      | some binding => written binding.value value source
      | none => value, true⟩ else (before.scope other).find? x

theorem defineOne {name : String} {value : Value} {source : Option Expr} {before : Machine} {α : Type}
    {next : Eval α} {result : Machine} {outcome : α}
    (named : name ≠ blankName) (old : id < before.store.scopes.size)
    (ran : (do
      if ← Eval.hasLocal (id :: outer) name then do
        Eval.storeValue (id :: outer) name value source location
        next
      else do
        Eval.bind (id :: outer) name value true
        next) before = .ok outcome result) :
    ∃ after, SameApart before after ∧ DefinedOne id name value source before.store after.store ∧
      next after = .ok outcome result := by
  obtain ⟨present, middle, looked, ran⟩ := eval_bind_ok ran
  obtain ⟨rfl, rfl⟩ := EStateM.Result.ok.inj looked
  unfold Store.hasLocal at ran
  cases here : (before.store.scope id).find? name with
  -- A new name is bound in the scope itself.
  | none =>
      simp only [here, Option.isSome_none, Bool.false_eq_true, if_false] at ran
      obtain ⟨_, after, bound, ran⟩ := eval_bind_ok ran
      obtain ⟨_, rfl⟩ := EStateM.Result.ok.inj bound
      refine ⟨_, ?_, ⟨?_, fun other x => ?_⟩, ran⟩
      · exact rfl
      · exact before.store.size_bind _ _ _
      · rw [here]
        exact before.store.find?_bind outer _ named old other x
  | some binding =>
      simp only [here, Option.isSome_some, if_true] at ran
      obtain ⟨_, after, stored, ran⟩ := eval_bind_ok ran
      obtain ⟨same, found, value', known, writes, _⟩ := storeValue_ok stored
      simp only [Store.find?, here, Option.some.injEq, Prod.mk.injEq] at known
      obtain ⟨rfl, rfl⟩ := known
      refine ⟨after, same, ⟨by rw [writes, Store.write, Store.size_modify], fun other x => ?_⟩, ran⟩
      rw [here, writes, Store.find?_write here]

section

variable {first middle last : Store} {name : String} {value : Value} {source : Option Expr}

theorem DefinedAll.skip (defined : DefinedAll id names received first last) :
    DefinedAll id (blankName :: names) ((value, source) :: received) first last where
  size := defined.size
  written target new origin member named := by
    rcases List.mem_cons.mp member with here | behind
    · obtain ⟨rfl, _⟩ := Prod.mk.inj here
      exact absurd rfl named
    · exact defined.written target new origin behind named
  kept other x unwritten :=
    defined.kept other x fun here inside => unwritten here (List.mem_cons_of_mem _ inside)

theorem DefinedAll.cons (real : name ≠ blankName) (fresh : name ∉ names)
    (one : DefinedOne id name value source first middle) (defined : DefinedAll id names received middle last) :
    DefinedAll id (name :: names) ((value, source) :: received) first last := by
  have still : (last.scope id).find? name = (middle.scope id).find? name :=
    defined.kept id name fun _ inside => absurd inside fresh
  refine ⟨defined.size.trans one.size, fun target new origin member named => ?_, fun other x unwritten => ?_⟩
  · rcases List.mem_cons.mp member with here | behind
    · obtain ⟨rfl, both⟩ := Prod.mk.inj here
      obtain ⟨rfl, rfl⟩ := Prod.mk.inj both
      rw [still, one.slots, if_pos ⟨rfl, rfl⟩]
    · have different : target ≠ name := by
        rintro rfl
        exact fresh (List.of_mem_zip behind).1
      have unchanged := one.slots id target
      rw [if_neg fun both => different both.2] at unchanged
      rw [← unchanged]
      exact defined.written target new origin behind named
  · have apart : ¬(other = id ∧ x = name) := by
      rintro ⟨rfl, rfl⟩
      exact real (unwritten rfl List.mem_cons_self)
    rw [defined.kept other x fun here inside => unwritten here (List.mem_cons_of_mem _ inside),
      one.slots, if_neg apart]

end

theorem defineValues_defined {before after : Machine} (distinct : Distinct names)
    (old : id < before.store.scopes.size) (count : received.length = names.length)
    (ran : Eval.defineValues (id :: outer) location names received before = .ok () after) :
    SameApart before after ∧ DefinedAll id names received before.store after.store := by
  induction names generalizing received before with
  | nil =>
      obtain rfl := List.length_eq_zero_iff.mp count
      obtain ⟨_, rfl⟩ := EStateM.Result.ok.inj ran
      exact ⟨.refl _, rfl, fun _ _ _ member => absurd member List.not_mem_nil, fun _ _ _ => rfl⟩
  | cons name names ih =>
      cases received with
      | nil => exact nomatch count
      | cons pair received =>
          obtain ⟨value, source⟩ := pair
          rw [Eval.defineValues] at ran
          by_cases blank : name = blankName
          · rw [if_pos (by simpa using blank)] at ran
            obtain ⟨same, defined⟩ := ih distinct.tail old (Nat.succ.inj count) ran
            subst blank
            exact ⟨same, defined.skip⟩
          · rw [if_neg (by simpa using blank)] at ran
            obtain ⟨middle, sameFirst, one, ran⟩ := defineOne blank old ran
            obtain ⟨same, defined⟩ := ih distinct.tail (one.size ▸ old) (Nat.succ.inj count) ran
            exact ⟨sameFirst.trans same, defined.cons blank (distinct.head blank) one⟩

/-- An assignment, or a short declaration, of different names: first all values are evaluated, and then
the store is as it was behind the values, but for the bindings of the names. The blank name may stand
several times. -/
theorem parallel_assignment {exprs : List Expr} {flow : Flow} {before after : Machine}
    (distinct : Distinct names) :
    (Eval.statement limit fuel env (.assign names exprs location) before = .ok flow after →
      flow = .normal ∧ ∃ received middle, Gathered limit env exprs before received middle ∧
        received.length = names.length ∧ SameApart middle after ∧
        AssignedAll env names received middle.store after.store) ∧
    (env = id :: outer → id < before.store.scopes.size →
      Eval.statement limit fuel env (.define names exprs location) before = .ok flow after →
      flow = .normal ∧ ∃ received middle, Gathered limit env exprs before received middle ∧
        received.length = names.length ∧ SameApart middle after ∧
        DefinedAll id names received middle.store after.store) := by
  constructor
  · intro ran
    cases fuel with
    | zero => exact nomatch ran
    | succ fuel =>
        obtain ⟨received, middle, evaluated, ran⟩ := eval_bind_ok ran
        split at ran
        · rename_i count
          obtain ⟨_, last, stored, ran⟩ := eval_bind_ok ran
          obtain ⟨rfl, rfl⟩ := EStateM.Result.ok.inj ran
          obtain ⟨same, assigned⟩ := storeValues_assigned distinct count stored
          exact ⟨rfl, received, middle, values_gathered evaluated, count, same, assigned⟩
        · exact nomatch ran
  · rintro rfl old ran
    cases fuel with
    | zero => exact nomatch ran
    | succ fuel =>
        obtain ⟨received, middle, evaluated, ran⟩ := eval_bind_ok ran
        split at ran
        · rename_i count
          obtain ⟨_, last, stored, ran⟩ := eval_bind_ok ran
          obtain ⟨rfl, rfl⟩ := EStateM.Result.ok.inj ran
          -- The values may open scopes while they are evaluated, but the scope of the statement is there still.
          have spares := @Confining.values 0 limit fuel (confining 0 limit fuel) (id :: outer) exprs before (Nat.zero_le _)
          rw [evaluated] at spares
          obtain ⟨same, defined⟩ := defineValues_defined distinct (old.trans_le spares.size) count stored
          exact ⟨rfl, received, middle, values_gathered evaluated, count, same, defined⟩
        · exact nomatch ran

/-! A scope with two integers `x` and `y`. -/

namespace Swapped

def before : Machine :=
  { Machine.initial .empty with store := ⟨#[⟨[("x", ⟨.int 1, true⟩), ("y", ⟨.int 2, true⟩)]⟩]⟩ }

/-- `x, _, y = y, 0, x`. -/
def assigning : Stmt :=
  .assign ["x", "_", "y"] [.identifier "y" ⟨1, 11⟩, .integer 0, .identifier "x" ⟨1, 17⟩] ⟨1, 1⟩

/-- `z, y := y, x`. -/
def defining : Stmt := .define ["z", "y"] [.identifier "y" ⟨1, 9⟩, .identifier "x" ⟨1, 12⟩] ⟨1, 1⟩

@[irreducible] def assigned : Machine := behind (Eval.statement 10 8 [0] assigning before)

@[irreducible] def defined : Machine := behind (Eval.statement 10 8 [0] defining before)

theorem assigning_ran : Eval.statement 10 8 [0] assigning before = .ok .normal assigned := by
  unfold assigned assigning before
  cbv

theorem defining_ran : Eval.statement 10 8 [0] defining before = .ok .normal defined := by
  unfold defined defining before
  cbv

end Swapped

theorem swapped_in_parallel :
    (∃ received, ∃ middle : Machine,
      AssignedAll [0] ["x", "_", "y"] received middle.store Swapped.assigned.store) ∧
    ∃ received, ∃ middle : Machine, DefinedAll 0 ["z", "y"] received middle.store Swapped.defined.store := by
  obtain ⟨_, received, middle, _, _, _, assigned⟩ :=
    (@parallel_assignment _ _ _ [] 0 _ _ _ _ _ _ (by decide)).1 Swapped.assigning_ran
  obtain ⟨_, others, between, _, _, _, defined⟩ :=
    (parallel_assignment (by decide)).2 rfl (by decide) Swapped.defining_ran
  exact ⟨⟨received, middle, assigned⟩, others, between, defined⟩

end MiniGo.Running
