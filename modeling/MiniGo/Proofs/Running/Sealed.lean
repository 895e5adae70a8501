import MiniGo.Proofs.Lexical.Judgement
import MiniGo.Proofs.Package.Workspaces
import MiniGo.Proofs.Running.Confined

/-!
# The names of a scope

A scope gets its names from the declarations that stand in it. Every other statement leaves each scope that is
there the names that it has, and so do expressions and calls, however they end and whatever functions they
call (`scopes_keep_names`). A declaration adds to the scope where it stands, and only the names that it declares.
-/

namespace MiniGo.Running

open Lexical (declared)

variable {own : ScopeId → String → Prop} {before middle after : Store} {env : Env} {location : Location}

/-- Whether a name of a scope may be assigned to; nothing if the scope does not have the name. -/
def mutability? (store : Store) (id : ScopeId) (name : String) : Option Bool :=
  ((store.scope id).find? name).map (·.mutable)

/-- The scopes that were there before have the names that they had, which may be assigned to as before; `own`
are the names of scopes of which that is not said. -/
structure Sealed (own : ScopeId → String → Prop) (before after : Store) : Prop where
  size : before.scopes.size ≤ after.scopes.size
  names : ∀ id < before.scopes.size, ∀ name, ¬ own id name →
    mutability? after id name = mutability? before id name

theorem Sealed.refl (store : Store) : Sealed own store store := ⟨Nat.le_refl _, fun _ _ _ _ => rfl⟩

theorem Sealed.trans (first : Sealed own before middle) (second : Sealed own middle after) :
    Sealed own before after :=
  ⟨first.size.trans second.size, fun id old name apart =>
    (second.names id (old.trans_le first.size) name apart).trans (first.names id old name apart)⟩

theorem Rewritten.mutability {one other : Option Binding} (rewritten : Rewritten one other) :
    other.map (·.mutable) = one.map (·.mutable) := by
  rcases rewritten with rfl | ⟨old, new, rfl, rfl⟩ <;> rfl

theorem Spares.sealed (spares : Spares before.scopes.size before after) : Sealed own before after :=
  ⟨spares.size, fun id old name _ => (spares.slots id old name).mutability⟩

theorem sealed_bind (store : Store) {name : String} (binding : Binding)
    (owned : name ≠ blankName → ∀ id ∈ env.head?, own id name) : Sealed own store (store.bind env name binding) := by
  refine ⟨(store.size_bind env name binding).ge, fun id old other apart => ?_⟩
  by_cases blank : name = blankName
  · rw [blank, store.bind_blank]
  · cases env with
    | nil => simp [Store.bind]
    | cons innermost outer =>
        have owned := owned blank innermost rfl
        have elsewhere : ¬ (id = innermost ∧ other = name) := by
          rintro ⟨rfl, rfl⟩
          exact apart owned
        by_cases here : innermost < store.scopes.size
        · rw [mutability?, store.find?_bind outer binding blank here, if_neg elsewhere]
          rfl
        · have unused : store.bind (innermost :: outer) name binding = store := by
            rw [Store.bind, if_neg (by simpa using blank)]
            exact store.modify_of_le (Nat.le_of_not_lt here) _
          rw [unused]

/-! ## Computations -/

/-- A computation leaves the scopes that are there their names, but for some, however it ends. -/
def Seals (own : ScopeId → String → Prop) (action : Eval α) : Prop :=
  ∀ machine, Sealed own machine.store (behind (action machine)).store

namespace Seals

theorem pure {value : α} : Seals own (Pure.pure value : Eval α) := fun _ => .refl _

theorem fail {error : RuntimeError} : Seals own (Eval.fail error : Eval α) := fun _ => .refl _

theorem exhausted : Seals own (Eval.exhausted : Eval α) := fun _ => .refl _

theorem confined {action : Eval α} (confined : ∀ bound, Confined bound action) : Seals own action := by
  intro machine
  have spares := confined machine.store.scopes.size machine (Nat.le_refl _)
  cases ran : action machine <;> rw [ran] at spares <;> exact spares.sealed

theorem bind {action : Eval α} {next : α → Eval β} (first : Seals own action)
    (rest : ∀ value, Seals own (next value)) : Seals own (action >>= next) := by
  intro machine
  have start := first machine
  rw [bind_run]
  cases ran : action machine with
  | error halt after =>
      rw [ran] at start
      exact start
  | ok value middle =>
      rw [ran] at start
      exact start.trans (rest value middle)

theorem choice {condition : Prop} [Decidable condition] {yes no : Eval α} (one : Seals own yes)
    (two : Seals own no) : Seals own (if condition then yes else no) := by
  split
  · exact one
  · exact two

theorem bindTyped {name : String} {type? : Option Ty} {value : Value} {mutable : Bool}
    (owned : name ≠ blankName → ∀ id ∈ env.head?, own id name) :
    Seals own (Eval.bindTyped env name type? value mutable) := fun _ => sealed_bind _ _ owned

theorem bindValues {mutable : Bool} {type? : Option Ty} {names : List String} {values : List Value}
    (owned : ∀ name ∈ names, name ≠ blankName → ∀ id ∈ env.head?, own id name) :
    Seals own (Eval.bindValues env mutable type? names values) := by
  induction names generalizing values with
  | nil => exact pure
  | cons name names ih =>
      cases values with
      | nil => exact pure
      | cons value values =>
          exact bind (bindTyped (owned name List.mem_cons_self)) fun _ =>
            ih fun other member => owned other (List.mem_cons_of_mem _ member)

/-- A short declaration binds the names that are new and writes the others. -/
theorem defineValues {names : List String} {received : List (Value × Option Expr)}
    (owned : ∀ name ∈ names, name ≠ blankName → ∀ id ∈ env.head?, own id name) :
    Seals own (Eval.defineValues env location names received) := by
  induction names generalizing received with
  | nil => exact pure
  | cons name names ih =>
      cases received with
      | nil => exact pure
      | cons pair received =>
          have behind := @ih received fun other member => owned other (List.mem_cons_of_mem _ member)
          rw [Eval.defineValues]
          refine choice behind (bind (confined fun _ => .hasLocal) fun present => choice ?_ ?_)
          · exact bind (confined fun _ => .storeValue) fun _ => behind
          · exact bind (bindTyped (owned name List.mem_cons_self)) fun _ => behind

theorem declare {limit fuel : Nat} {target : Env} {decl : ValueDecl}
    (owned : ∀ name ∈ decl.names, name ≠ blankName → ∀ id ∈ target.head?, own id name) :
    Seals own (Eval.declare limit fuel env target decl) := by
  cases fuel with
  | zero => exact exhausted
  | succ fuel =>
      unfold Eval.declare
      split
      · split
        · exact bindValues owned
        · exact fail
      · refine bind (confined fun bound => (confining bound limit fuel).values) fun received => choice ?_ fail
        exact bind (confined fun _ => .declaredValues) fun _ => bindValues owned

theorem statement {limit fuel : Nat} {stmt : Stmt} :
    Seals (fun id name => env.head? = some id ∧ name ∈ declared stmt ∧ name ≠ blankName)
      (Eval.statement limit fuel env stmt) := by
  cases fuel with
  | zero => exact exhausted
  | succ fuel =>
      cases stmt with
      | declare decl =>
          exact bind (declare fun _ member named _ first => ⟨first, member, named⟩) fun _ => pure
      | define names exprs location =>
          refine bind (confined fun bound => (confining bound limit fuel).values) fun received =>
            choice (bind (defineValues ?_) fun _ => pure) fail
          exact fun _ member named _ first => ⟨first, member, named⟩
      | _ => exact confined fun bound => (confining bound limit fuel).undeclaring_succ nofun nofun

end Seals

/-- However a run ends, each scope that was there has the names that it had, and they may be assigned to as
before. A declaration may have added or replaced the names that it declares, the blank name apart, in the scope
where it stands; all other statements, expressions and calls have not. -/
theorem scopes_keep_names (limit fuel : Nat) (env : Env) :
    (∀ stmt, Seals (fun id name => env.head? = some id ∧ name ∈ declared stmt ∧ name ≠ blankName)
      (Eval.statement limit fuel env stmt)) ∧
    (∀ expr, Seals (fun _ _ => False) (Eval.evaluate limit fuel env expr)) ∧
    (∀ callee args location, Seals (fun _ _ => False) (Eval.call limit fuel env callee args location)) ∧
    (∀ function args location, Seals (fun _ _ => False) (Eval.apply limit fuel function args location)) :=
  ⟨fun _ => .statement, fun _ => .confined fun bound => (confining bound limit fuel).evaluate,
    fun _ _ _ => .confined fun bound => (confining bound limit fuel).call,
    fun _ _ _ => .confined fun bound => (confining bound limit fuel).apply⟩

end MiniGo.Running
