import MiniGo.Value

/-!
# Stores of scopes

A store holds every scope that a run has opened. Code sees it through an environment, the list of
scopes that are open where the code stands, the innermost first; environments that share a scope see
each other's assignments. Scopes are added and never removed.

`Store.find?` is the binding that a name means in an environment. The other operations are defined
by what they do to the bindings of single scopes, and the lemmas at the end say so.
-/

namespace MiniGo

/-- What a name is bound to, and whether it may be assigned to. -/
structure Binding where
  value : Value
  mutable : Bool

/-- The names of one scope, each at most once. -/
structure Scope where
  bindings : List (String × Binding)

instance : Inhabited Scope := ⟨⟨[]⟩⟩

namespace Scope

def empty : Scope := ⟨[]⟩

def findIn (name : String) : List (String × Binding) → Option Binding
  | [] => none
  | (other, binding) :: rest => if other == name then some binding else findIn name rest

/-- The list with a name bound anew, in place of an earlier binding if there is one. -/
def insertIn (name : String) (binding : Binding) : List (String × Binding) → List (String × Binding)
  | [] => [(name, binding)]
  | (other, old) :: rest =>
      if other == name then (name, binding) :: rest else (other, old) :: insertIn name binding rest

def find? (scope : Scope) (name : String) : Option Binding := findIn name scope.bindings

def insert (scope : Scope) (name : String) (binding : Binding) : Scope :=
  ⟨insertIn name binding scope.bindings⟩

def names (scope : Scope) : List String := scope.bindings.map (·.1)

@[simp] theorem find?_empty (name : String) : empty.find? name = none := rfl

theorem find?_insert_self (scope : Scope) (name : String) (binding : Binding) :
    (scope.insert name binding).find? name = some binding := by
  obtain ⟨bindings⟩ := scope
  unfold find? insert
  induction bindings with
  | nil => simp [insertIn, findIn]
  | cons entry rest ih =>
      by_cases here : entry.1 == name
      · simp [insertIn, findIn, here]
      · simpa [insertIn, findIn, here] using ih

theorem find?_insert_of_ne (scope : Scope) {name other : String} (binding : Binding)
    (different : other ≠ name) : (scope.insert name binding).find? other = scope.find? other := by
  obtain ⟨bindings⟩ := scope
  unfold find? insert
  induction bindings with
  | nil => simp [insertIn, findIn, different.symm]
  | cons entry rest ih =>
      by_cases here : entry.1 == name
      · have equal : entry.1 = name := by simpa using here
        simp [insertIn, findIn, equal, different.symm]
      · by_cases there : entry.1 == other
        · simp [insertIn, findIn, here, there]
        · simpa [insertIn, findIn, here, there] using ih

end Scope

/-- All scopes of a run, by their numbers. -/
structure Store where
  scopes : Array Scope

namespace Store

def empty : Store := ⟨#[]⟩

/-- The scope with a number; a number that is not in use has an empty scope. -/
def scope (store : Store) (id : ScopeId) : Scope := store.scopes.getD id Scope.empty

def child (store : Store) (env : Env) : Env × Store :=
  (store.scopes.size :: env, ⟨store.scopes.push Scope.empty⟩)

def modify (store : Store) (id : ScopeId) (change : Scope → Scope) : Store :=
  ⟨store.scopes.modify id change⟩

/-- Binds a name in the innermost scope of an environment; the blank name binds nothing. -/
def bind (store : Store) (env : Env) (name : String) (binding : Binding) : Store :=
  if name == blankName then store
  else match env with
    | [] => store
    | id :: _ => store.modify id (·.insert name binding)

/-- The binding that a name means in an environment, with the scope it is in. -/
def find? (store : Store) : Env → String → Option (ScopeId × Binding)
  | [], _ => none
  | id :: outer, name =>
      match (store.scope id).find? name with
      | some binding => some (id, binding)
      | none => find? store outer name

def get? (store : Store) (env : Env) (name : String) : Option Value :=
  (store.find? env name).map (·.2.value)

/-- The value that a name has in the innermost scope of an environment. -/
def getLocal? (store : Store) (env : Env) (name : String) : Option Value :=
  match env with
  | [] => none
  | id :: _ => ((store.scope id).find? name).map (·.value)

/-- A name is bound in the innermost scope of an environment. -/
def hasLocal (store : Store) (env : Env) (name : String) : Bool :=
  match env with
  | [] => false
  | id :: _ => ((store.scope id).find? name).isSome

/-- The scope of the binding that a name means in an environment, if it may be assigned to. -/
def target (store : Store) (env : Env) (name : String) (location : Location) :
    Except RuntimeError ScopeId :=
  match store.find? env name with
  | none => .error (.undefined name location)
  | some (id, binding) =>
      if binding.mutable then .ok id else .error (.mismatch (.immutable name) location)

def write (store : Store) (id : ScopeId) (name : String) (value : Value) : Store :=
  store.modify id (·.insert name ⟨value, true⟩)

def assign (store : Store) (env : Env) (name : String) (value : Value) (location : Location) :
    Except RuntimeError Store :=
  match store.target env name location with
  | .ok id => .ok (store.write id name value)
  | .error error => .error error

/-- The names of the innermost scope of an environment, in the order of code points. -/
def localNames (store : Store) (env : Env) : List String :=
  match env with
  | [] => []
  | id :: _ => (store.scope id).names.mergeSort (fun a b => !(b < a))

/-! ## Lemmas -/

theorem scope_child_of_lt (store : Store) (env : Env) (id : ScopeId) (old : id < store.scopes.size) :
    (store.child env).2.scope id = store.scope id := by
  simp [scope, child, Array.getD_eq_getD_getElem?, Array.getElem?_push, Nat.ne_of_lt old]

theorem scope_child_new (store : Store) (env : Env) :
    (store.child env).2.scope store.scopes.size = Scope.empty := by
  simp [scope, child, Array.getD_eq_getD_getElem?]

theorem scope_modify_of_ne (store : Store) {id other : ScopeId} (change : Scope → Scope)
    (different : other ≠ id) : (store.modify id change).scope other = store.scope other := by
  simp [scope, modify, Array.getD_eq_getD_getElem?, Array.getElem?_modify, different.symm]

theorem scope_modify_self (store : Store) (id : ScopeId) (change : Scope → Scope)
    (old : id < store.scopes.size) : (store.modify id change).scope id = change (store.scope id) := by
  simp [scope, modify, Array.getD_eq_getD_getElem?, old, Array.getElem_modify]

end Store

end MiniGo
