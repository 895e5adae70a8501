import Mathlib
import MiniGo.Store

/-!
# Stores after a step

What the scopes of a store hold after a scope is opened, a name is bound or a variable is written,
and which binding a name means by the positions of the scopes in an environment.
-/

namespace MiniGo.Store

theorem size_child (store : Store) (env : Env) :
    (store.child env).2.scopes.size = store.scopes.size + 1 := by
  simp [child]

theorem scope_child (store : Store) (env : Env) (id : ScopeId) :
    (store.child env).2.scope id = store.scope id := by
  rcases Nat.lt_trichotomy id store.scopes.size with old | new | beyond
  · exact store.scope_child_of_lt env id old
  · rw [new, scope_child_new]
    simp [scope, Array.getD_eq_getD_getElem?]
  · simp [scope, child, Array.getD_eq_getD_getElem?, Array.getElem?_push, Nat.ne_of_gt beyond]

theorem scope_of_le (store : Store) {id : ScopeId} (beyond : store.scopes.size ≤ id) : store.scope id = Scope.empty := by
  rw [scope, Array.getD_eq_getD_getElem?, Array.getElem?_eq_none beyond]
  rfl

theorem size_modify (store : Store) (id : ScopeId) (change : Scope → Scope) :
    (store.modify id change).scopes.size = store.scopes.size := by
  simp [modify]

theorem modify_of_le (store : Store) {id : ScopeId} (beyond : store.scopes.size ≤ id) (change : Scope → Scope) :
    store.modify id change = store := by
  simp [modify, Array.modify, Array.modifyM, Nat.not_lt.mpr beyond]

theorem find?_modify_insert (store : Store) {id : ScopeId} (name : String) (binding : Binding)
    (old : id < store.scopes.size) (other : ScopeId) (x : String) :
    ((store.modify id (·.insert name binding)).scope other).find? x
      = if other = id ∧ x = name then some binding else (store.scope other).find? x := by
  by_cases here : other = id
  · subst here
    rw [scope_modify_self _ _ _ old]
    by_cases same : x = name
    · rw [same, Scope.find?_insert_self, if_pos ⟨rfl, rfl⟩]
    · rw [Scope.find?_insert_of_ne _ _ same, if_neg (fun both => same both.2)]
  · rw [scope_modify_of_ne _ _ here, if_neg (fun both => here both.1)]

theorem find?_bind (store : Store) {id : ScopeId} (env : Env) {name : String} (binding : Binding)
    (named : name ≠ blankName) (old : id < store.scopes.size) (other : ScopeId) (x : String) :
    ((store.bind (id :: env) name binding).scope other).find? x
      = if other = id ∧ x = name then some binding else (store.scope other).find? x := by
  have unblank : (name == blankName) = false := by simpa using named
  rw [bind, unblank, if_neg Bool.false_ne_true]
  exact store.find?_modify_insert name binding old other x

theorem size_bind (store : Store) (env : Env) (name : String) (binding : Binding) :
    (store.bind env name binding).scopes.size = store.scopes.size := by
  unfold bind
  split
  · rfl
  · cases env with
    | nil => rfl
    | cons id env => exact store.size_modify id _

theorem bind_of_le (store : Store) {id : ScopeId} (env : Env) (name : String) (binding : Binding)
    (beyond : store.scopes.size ≤ id) : store.bind (id :: env) name binding = store := by
  unfold bind
  split
  · rfl
  · exact store.modify_of_le beyond _

@[simp] theorem bind_blank (store : Store) (env : Env) (binding : Binding) :
    store.bind env blankName binding = store := by
  simp [bind]

/-- A name means its binding in the first scope that has one. -/
theorem find?_of_first {store : Store} {env : Env} {name : String} {position : Nat} {id : ScopeId}
    {binding : Binding} (here : env[position]? = some id)
    (bound : (store.scope id).find? name = some binding)
    (passed : ∀ nearer < position, ∀ other, env[nearer]? = some other →
      (store.scope other).find? name = none) :
    store.find? env name = some (id, binding) := by
  induction env generalizing position with
  | nil => simp at here
  | cons first env ih =>
      cases position with
      | zero =>
          obtain rfl : first = id := by simpa using here
          simp [find?, bound]
      | succ position =>
          have skipped : (store.scope first).find? name = none := passed 0 (by omega) first rfl
          simp only [find?, skipped]
          exact ih (by simpa using here)
            (fun nearer less other at' => passed (nearer + 1) (by omega) other (by simpa using at'))

theorem getLocal?_cons (store : Store) (id : ScopeId) (env : Env) (name : String) :
    store.getLocal? (id :: env) name = ((store.scope id).find? name).map (·.value) := rfl

theorem found_in_scope {store : Store} {env : Env} {name : String} {id : ScopeId} {binding : Binding}
    (found : store.find? env name = some (id, binding)) : (store.scope id).find? name = some binding := by
  induction env with
  | nil => exact nomatch found
  | cons first rest ih =>
      unfold Store.find? at found
      split at found
      · rename_i bound
        obtain ⟨rfl, rfl⟩ := Prod.mk.inj (Option.some.inj found)
        exact bound
      · exact ih found

theorem lt_size_of_bound {store : Store} {name : String} {id : ScopeId} {binding : Binding}
    (bound : (store.scope id).find? name = some binding) : id < store.scopes.size := by
  by_contra beyond
  rw [store.scope_of_le (Nat.le_of_not_lt beyond)] at bound
  exact nomatch bound

theorem find?_congr {before after : Store} {env : Env} {name : String}
    (same : ∀ id, (after.scope id).find? name = (before.scope id).find? name) :
    after.find? env name = before.find? env name := by
  induction env with
  | nil => rfl
  | cons first rest ih => simp only [Store.find?, same, ih]

theorem find?_write {store : Store} {name : String} {id : ScopeId} {old : Binding} {value : Value}
    (bound : (store.scope id).find? name = some old) (other : ScopeId) (x : String) :
    ((store.write id name value).scope other).find? x
      = if other = id ∧ x = name then some ⟨value, true⟩ else (store.scope other).find? x :=
  store.find?_modify_insert name _ (lt_size_of_bound bound) other x

theorem find?_write_of_ne {store : Store} {name x : String} {id : ScopeId} {old : Binding} {value : Value}
    (bound : (store.scope id).find? name = some old) (different : x ≠ name) (other : ScopeId) :
    ((store.write id name value).scope other).find? x = (store.scope other).find? x := by
  rw [find?_write bound, if_neg fun both => different both.2]

end MiniGo.Store
