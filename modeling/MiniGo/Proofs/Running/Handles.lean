import MiniGo.Proofs.Running.Stores

/-!
# Scopes behind handles

Environments that share a scope see each other's writes, whatever is done to any of them and in any order
(`HandleAct`). `SharedScopes` keeps a store and the environments that it was given out as, and beside them all that
was written so far; a name means what was last written to it in the nearest scope that has it (`nearest`). The store
knows nothing of that list. It answers as if it did (`Lawful`), after any operations (`handles_lawful`).
-/

namespace MiniGo

/-- What a name of a scope got. -/
structure Writing where
  scope : ScopeId
  name : String
  binding : Binding

/-- A store behind handles, with all that was written to it, the latest first. -/
structure SharedScopes where
  store : Store
  handles : List Env
  writings : List Writing

/-- What is done with handles, each told by its position among those created so far. -/
inductive HandleAct where
  | new
  | child (handle : Nat)
  | clone (handle : Nat)
  | define (handle : Nat) (name : String) (value : Value)
  | defineConst (handle : Nat) (name : String) (value : Value)
  | assign (handle : Nat) (name : String) (value : Value) (location : Location)

/-- What was last written to a name of a scope. -/
def lastWriting (writings : List Writing) (id : ScopeId) (name : String) : Option Writing :=
  writings.find? fun writing => writing.scope == id && writing.name == name

/-- What was last written to a name in the nearest scope of a chain that has the name. -/
def nearest (writings : List Writing) (env : Env) (name : String) : Option Writing :=
  env.findSome? (lastWriting writings · name)

namespace SharedScopes

/-- No scopes yet, and no handles. -/
def start : SharedScopes := ⟨.empty, [], []⟩

/-- Opens a scope inside an environment and gives out a handle to it. -/
def opened (scopes : SharedScopes) (env : Env) : SharedScopes :=
  let (handle, store) := scopes.store.child env
  { scopes with store, handles := scopes.handles ++ [handle] }

/-- Binds a name in the scope of a handle, unless the name is blank. -/
def bound (scopes : SharedScopes) (env : Env) (name : String) (binding : Binding) : SharedScopes :=
  { scopes with
    store := scopes.store.bind env name binding
    writings :=
      if name = blankName then scopes.writings
      else match env with
        | [] => scopes.writings
        | id :: _ => ⟨id, name, binding⟩ :: scopes.writings }

/-- Assigns to the nearest scope that has a name; what comes of it is written down if the name is not a constant
there. -/
def assigned (scopes : SharedScopes) (env : Env) (name : String) (value : Value) (location : Location) : SharedScopes :=
  { scopes with
    store := match scopes.store.assign env name value location with
      | .ok store => store
      | .error _ => scopes.store
    writings := match nearest scopes.writings env name with
      | some writing =>
          if writing.binding.mutable then ⟨writing.scope, name, ⟨value, true⟩⟩ :: scopes.writings else scopes.writings
      | none => scopes.writings }

/-- What is done through a handle; nothing, if there is none. -/
def through (scopes : SharedScopes) (handle : Nat) (change : Env → SharedScopes) : SharedScopes :=
  match scopes.handles[handle]? with
  | some env => change env
  | none => scopes

/-- The scopes after an act. -/
def run (scopes : SharedScopes) : HandleAct → SharedScopes
  | .new => scopes.opened []
  | .child handle => scopes.through handle scopes.opened
  | .clone handle => scopes.through handle fun env => { scopes with handles := scopes.handles ++ [env] }
  | .define handle name value => scopes.through handle (scopes.bound · name ⟨value, true⟩)
  | .defineConst handle name value => scopes.through handle (scopes.bound · name ⟨value, false⟩)
  | .assign handle name value location => scopes.through handle (scopes.assigned · name value location)

/-- The scopes after acts. -/
def runAll (scopes : SharedScopes) (acts : List HandleAct) : SharedScopes := acts.foldl run scopes

end SharedScopes

/-- What an assignment through a handle comes to: it fails where no scope around has the name, or the nearest one has
a constant, and then nothing changes; else it changes that binding alone, whichever handle is asked. -/
structure Assigns (scopes : SharedScopes) (handle : Nat) (env : Env) (name : String) (value : Value)
    (location : Location) : Prop where
  missing : nearest scopes.writings env name = none →
    scopes.store.assign env name value location = .error (.undefined name location) ∧
      scopes.run (.assign handle name value location) = scopes
  constant : ∀ writing, nearest scopes.writings env name = some writing → writing.binding.mutable = false →
    scopes.store.assign env name value location = .error (.mismatch (.immutable name) location) ∧
      scopes.run (.assign handle name value location) = scopes
  changes : ∀ writing, nearest scopes.writings env name = some writing → writing.binding.mutable = true →
    ∃ after, scopes.store.assign env name value location = .ok after ∧
      (scopes.run (.assign handle name value location)).store = after ∧
      (∀ id x, (after.scope id).find? x
        = if id = writing.scope ∧ x = name then some ⟨value, true⟩ else (scopes.store.scope id).find? x) ∧
      ∀ other ∈ scopes.handles, ∀ x,
        after.find? other x
          = (if (nearest scopes.writings other x).map (·.scope) = some writing.scope ∧ x = name then
              some (writing.scope, ⟨value, true⟩)
            else scopes.store.find? other x) ∧
        after.getLocal? other x
          = (if other.head? = some writing.scope ∧ x = name then some value else scopes.store.getLocal? other x) ∧
        after.hasLocal other x = scopes.store.hasLocal other x

/-- Two handles give the same answers, and it does not matter through which of them something is done. -/
structure Interchangeable (scopes : SharedScopes) (one other : Nat) : Prop where
  env : ∃ env, scopes.handles[one]? = some env ∧ scopes.handles[other]? = some env
  get? : ∀ name, scopes.handles[one]?.map (scopes.store.get? · name)
    = scopes.handles[other]?.map (scopes.store.get? · name)
  getLocal? : ∀ name, scopes.handles[one]?.map (scopes.store.getLocal? · name)
    = scopes.handles[other]?.map (scopes.store.getLocal? · name)
  hasLocal : ∀ name, scopes.handles[one]?.map (scopes.store.hasLocal · name)
    = scopes.handles[other]?.map (scopes.store.hasLocal · name)
  define : ∀ name value, scopes.run (.define one name value) = scopes.run (.define other name value)
  defineConst : ∀ name value, scopes.run (.defineConst one name value) = scopes.run (.defineConst other name value)
  assign : ∀ name value location,
    scopes.handles[one]?.map (scopes.store.assign · name value location)
        = scopes.handles[other]?.map (scopes.store.assign · name value location) ∧
      scopes.run (.assign one name value location) = scopes.run (.assign other name value location)

/-- How scopes behind handles behave. A chain goes from later scopes to earlier ones, and a scope has the same scopes
around it in all of them; a name means what was last written to it in the nearest scope that has it, and the blank
name is never written to; a handle and its clone stay interchangeable. -/
structure Lawful (scopes : SharedScopes) : Prop where
  chains : ∀ env ∈ scopes.handles, env ≠ [] ∧ env.Pairwise (· > ·) ∧ ∀ id ∈ env, id < scopes.store.scopes.size
  around : ∃ around : ScopeId → Env, ∀ env ∈ scopes.handles, ∀ id rest, id :: rest <:+ env → rest = around id
  unblank : ∀ writing ∈ scopes.writings, writing.name ≠ blankName
  blank : ∀ handle value, scopes.run (.define handle blankName value) = scopes ∧
    scopes.run (.defineConst handle blankName value) = scopes
  reads : ∀ env ∈ scopes.handles, ∀ name,
    scopes.store.get? env name = (nearest scopes.writings env name).map (·.binding.value)
  assigns : ∀ handle env, scopes.handles[handle]? = some env → ∀ name value location,
    Assigns scopes handle env name value location
  clones : ∀ handle < scopes.handles.length, ∀ later : List HandleAct,
    Interchangeable ((scopes.run (.clone handle)).runAll later) handle scopes.handles.length

namespace SharedScopes

variable {scopes : SharedScopes} {writings : List Writing} {writing : Writing} {env : Env} {id : ScopeId}
  {name : String} {binding : Binding} {value : Value} {location : Location} {handle : Nat}

/-! ## Writings -/

theorem lastWriting_cons (id : ScopeId) (name : String) (binding : Binding) (writings : List Writing) (other : ScopeId)
    (x : String) :
    lastWriting (⟨id, name, binding⟩ :: writings) other x
      = if other = id ∧ x = name then some ⟨id, name, binding⟩ else lastWriting writings other x := by
  by_cases same : other = id ∧ x = name
  · simp [lastWriting, same.1, same.2]
  · have differs : (id == other && name == x) = false := by
      rw [Bool.eq_false_iff]
      intro both
      rw [Bool.and_eq_true, beq_iff_eq, beq_iff_eq] at both
      exact same ⟨both.1.symm, both.2.symm⟩
    rw [if_neg same, lastWriting, List.find?_cons, differs]
    rfl

theorem of_lastWriting (last : lastWriting writings id name = some writing) :
    writing.scope = id ∧ writing.name = name := by
  simpa using List.find?_some last

/-- What the chains, the list of writings and the bindings of the store have to do with each other. -/
structure Kept (scopes : SharedScopes) : Prop where
  chains : ∀ env ∈ scopes.handles, env ≠ [] ∧ env.Pairwise (· > ·) ∧ ∀ id ∈ env, id < scopes.store.scopes.size
  around : ∃ around : ScopeId → Env, ∀ env ∈ scopes.handles, ∀ id rest, id :: rest <:+ env → rest = around id
  unblank : ∀ writing ∈ scopes.writings, writing.name ≠ blankName
  holds : ∀ id name, (scopes.store.scope id).find? name = (lastWriting scopes.writings id name).map (·.binding)

theorem Kept.find? (kept : Kept scopes) (env : Env) (name : String) :
    scopes.store.find? env name = (nearest scopes.writings env name).map fun last => (last.scope, last.binding) := by
  induction env with
  | nil => rfl
  | cons id env ih =>
      rw [nearest, List.findSome?_cons, Store.find?, kept.holds]
      cases last : lastWriting scopes.writings id name with
      | none => exact ih
      | some writing => simp [(of_lastWriting last).1]

theorem Kept.bound_nearest (kept : Kept scopes) (last : nearest scopes.writings env name = some writing) :
    (scopes.store.scope writing.scope).find? name = some writing.binding := by
  have found : scopes.store.find? env name = some (writing.scope, writing.binding) := by
    rw [kept.find?, last]
    rfl
  exact Store.found_in_scope found

theorem Kept.nearest_named (kept : Kept scopes) (last : nearest scopes.writings env name = some writing) :
    name ≠ blankName := by
  obtain ⟨id, _, found⟩ := List.exists_of_findSome?_eq_some last
  rw [← (of_lastWriting found).2]
  exact kept.unblank writing (List.mem_of_find?_eq_some found)

theorem bound_blank (env : Env) (binding : Binding) : scopes.bound env blankName binding = scopes := by
  simp [bound]

theorem through_same (handle : Nat) : (scopes.through handle fun _ => scopes) = scopes := by
  unfold through
  split <;> rfl

/-! ## Assignments -/

theorem Kept.assign_missing (kept : Kept scopes) (missing : nearest scopes.writings env name = none) :
    scopes.store.assign env name value location = .error (.undefined name location) := by
  simp [Store.assign, Store.target, kept.find?, missing]

theorem Kept.assign_constant (kept : Kept scopes) (last : nearest scopes.writings env name = some writing)
    (constant : writing.binding.mutable = false) :
    scopes.store.assign env name value location = .error (.mismatch (.immutable name) location) := by
  simp [Store.assign, Store.target, kept.find?, last, constant]

theorem Kept.assign_variable (kept : Kept scopes) (last : nearest scopes.writings env name = some writing)
    (mutable_ : writing.binding.mutable = true) :
    scopes.store.assign env name value location = .ok (scopes.store.write writing.scope name value) := by
  simp [Store.assign, Store.target, kept.find?, last, mutable_]

theorem Kept.assigned_variable (kept : Kept scopes) (last : nearest scopes.writings env name = some writing)
    (mutable_ : writing.binding.mutable = true) :
    scopes.assigned env name value location
      = { scopes with
          store := scopes.store.write writing.scope name value
          writings := ⟨writing.scope, name, ⟨value, true⟩⟩ :: scopes.writings } := by
  simp [assigned, kept.assign_variable last mutable_, last, mutable_]

theorem Kept.assigned_failed (kept : Kept scopes)
    (fails : ∀ writing, nearest scopes.writings env name = some writing → writing.binding.mutable = false) :
    scopes.assigned env name value location = scopes := by
  cases last : nearest scopes.writings env name with
  | none => simp [assigned, kept.assign_missing last, last]
  | some writing => simp [assigned, kept.assign_constant last (fails writing last), last, fails writing last]

/-- A change of one binding, as handles see it. -/
theorem Kept.write_seen (kept : Kept scopes) (last : nearest scopes.writings env name = some writing)
    (other : Env) (x : String) :
    (scopes.store.write writing.scope name value).find? other x
      = if (nearest scopes.writings other x).map (·.scope) = some writing.scope ∧ x = name then
          some (writing.scope, ⟨value, true⟩)
        else scopes.store.find? other x := by
  have bound := kept.bound_nearest last
  induction other with
  | nil => simp [nearest, Store.find?]
  | cons id other ih =>
      rw [Store.find?, Store.find?_write bound, Store.find?, nearest, List.findSome?_cons, kept.holds]
      by_cases here : id = writing.scope ∧ x = name
      · obtain ⟨rfl, rfl⟩ := here
        rw [kept.holds] at bound
        obtain ⟨first, found, _⟩ := Option.map_eq_some_iff.mp bound
        simp [found, (of_lastWriting found).1]
      · rw [if_neg here]
        cases found : lastWriting scopes.writings id x with
        | none => exact ih
        | some first =>
            have inside : first.scope = id := (of_lastWriting found).1
            simp [inside, here]

theorem Kept.assigns (kept : Kept scopes) (given : scopes.handles[handle]? = some env) (name : String) (value : Value)
    (location : Location) : Assigns scopes handle env name value location where
  missing missing := by
    refine ⟨kept.assign_missing missing, ?_⟩
    rw [run, through, given]
    exact kept.assigned_failed (by simp [missing])
  constant writing last constant := by
    refine ⟨kept.assign_constant last constant, ?_⟩
    rw [run, through, given]
    exact kept.assigned_failed (by simpa [last] using constant)
  changes writing last mutable_ := by
    have bound := kept.bound_nearest last
    refine ⟨_, kept.assign_variable last mutable_, ?_, fun id x => Store.find?_write bound id x, ?_⟩
    · rw [run, through, given]
      simp only [kept.assigned_variable last mutable_]
    · intro other _ x
      refine ⟨kept.write_seen last other x, ?_⟩
      cases other with
      | nil => simp [Store.getLocal?, Store.hasLocal]
      | cons id other =>
          simp only [Store.getLocal?, Store.hasLocal, Store.find?_write bound, List.head?_cons, Option.some.injEq]
          split
          · rename_i here
            simp [here.1, here.2, bound]
          · exact ⟨rfl, rfl⟩

/-! ## Steps -/

theorem kept_start : Kept start where
  chains := nofun
  around := ⟨fun _ => [], nofun⟩
  unblank := nofun
  holds _ _ := rfl

/-- A new scope is in no chain that was there before. -/
theorem Kept.opened (kept : Kept scopes) (env : Env) (given : env = [] ∨ env ∈ scopes.handles) :
    Kept (scopes.opened env) where
  chains other member := by
    have size : (scopes.opened env).store.scopes.size = scopes.store.scopes.size + 1 :=
      Store.size_child scopes.store env
    rw [size]
    rcases List.mem_append.mp member with old | new
    · obtain ⟨filled, order, small⟩ := kept.chains other old
      exact ⟨filled, order, fun id inside => Nat.lt_succ_of_lt (small id inside)⟩
    · obtain rfl := List.mem_singleton.mp new
      have below : env.Pairwise (· > ·) ∧ ∀ id ∈ env, id < scopes.store.scopes.size := by
        rcases given with rfl | old
        · exact ⟨.nil, nofun⟩
        · exact (kept.chains env old).2
      refine ⟨List.cons_ne_nil _ _, List.pairwise_cons.mpr ⟨below.2, below.1⟩, fun id inside => ?_⟩
      rcases List.mem_cons.mp inside with rfl | inside
      · exact Nat.lt_succ_self _
      · exact Nat.lt_succ_of_lt (below.2 id inside)
  -- What stands around the new scope is the chain it was opened with.
  around := by
    obtain ⟨around, fits⟩ := kept.around
    refine ⟨Function.update around scopes.store.scopes.size env, fun other member id rest inside => ?_⟩
    have old : ∀ chain ∈ scopes.handles, id :: rest <:+ chain →
        rest = Function.update around scopes.store.scopes.size env id := by
      intro chain member inside
      have small := (kept.chains chain member).2.2 id (inside.subset List.mem_cons_self)
      rw [Function.update_of_ne (Nat.ne_of_lt small)]
      exact fits chain member id rest inside
    rcases List.mem_append.mp member with before | new
    · exact old other before inside
    · obtain rfl := List.mem_singleton.mp new
      rcases List.suffix_cons_iff.mp inside with whole | inside
      · obtain ⟨rfl, rfl⟩ := List.cons.inj whole
        rw [Function.update_self]
      · rcases given with rfl | before
        · exact nomatch List.suffix_nil.mp inside
        · exact old env before inside
  unblank := kept.unblank
  holds id name := by
    refine Eq.trans ?_ (kept.holds id name)
    exact congrArg (·.find? name) (Store.scope_child scopes.store env id)

/-- What is written to a scope that is there is found in it. -/
theorem Kept.written (kept : Kept scopes) {store : Store} (size : store.scopes.size = scopes.store.scopes.size)
    (named : name ≠ blankName)
    (holds : ∀ other x, (store.scope other).find? x
      = if other = id ∧ x = name then some binding else (scopes.store.scope other).find? x) :
    Kept { scopes with store, writings := ⟨id, name, binding⟩ :: scopes.writings } where
  chains env member := by
    rw [size]
    exact kept.chains env member
  around := kept.around
  unblank writing member := by
    rcases List.mem_cons.mp member with rfl | old
    · exact named
    · exact kept.unblank writing old
  holds other x := by
    rw [holds, lastWriting_cons, kept.holds]
    split <;> rfl

theorem Kept.bound (kept : Kept scopes) (member : env ∈ scopes.handles) (name : String) (binding : Binding) :
    Kept (scopes.bound env name binding) := by
  unfold SharedScopes.bound
  by_cases blank : name = blankName
  · simpa [blank] using kept
  obtain ⟨filled, _, small⟩ := kept.chains env member
  cases env with
  | nil => exact absurd rfl filled
  | cons id env =>
      rw [if_neg blank]
      exact kept.written (Store.size_bind _ _ _ _) blank
        (Store.find?_bind scopes.store env binding blank (small id List.mem_cons_self))

theorem Kept.assigned (kept : Kept scopes) (env : Env) (name : String) (value : Value) (location : Location) :
    Kept (scopes.assigned env name value location) := by
  by_cases fails : ∀ writing, nearest scopes.writings env name = some writing → writing.binding.mutable = false
  · rw [kept.assigned_failed fails]
    exact kept
  · obtain ⟨writing, last, mutable_⟩ : ∃ writing, nearest scopes.writings env name = some writing ∧
        writing.binding.mutable = true := by simpa using fails
    rw [kept.assigned_variable last mutable_]
    exact kept.written (Store.size_modify _ _ _) (kept.nearest_named last)
      (Store.find?_write (kept.bound_nearest last))

theorem Kept.through (kept : Kept scopes) {change : Env → SharedScopes}
    (keeps : ∀ env ∈ scopes.handles, Kept (change env)) (handle : Nat) : Kept (scopes.through handle change) := by
  unfold SharedScopes.through
  split
  · exact keeps _ (List.mem_of_getElem? ‹_›)
  · exact kept

theorem Kept.run (kept : Kept scopes) (act : HandleAct) : Kept (scopes.run act) := by
  cases act with
  | new => exact kept.opened [] (.inl rfl)
  | child handle => exact kept.through (fun env member => kept.opened env (.inr member)) handle
  | clone handle =>
      refine kept.through (fun env member => ?_) handle
      have among : ∀ other ∈ scopes.handles ++ [env], other ∈ scopes.handles := by
        simpa [or_imp, forall_and] using member
      obtain ⟨around, fits⟩ := kept.around
      exact ⟨fun other old => kept.chains other (among other old),
        ⟨around, fun other old => fits other (among other old)⟩, kept.unblank, kept.holds⟩
  | define handle name value => exact kept.through (fun env member => kept.bound member name _) handle
  | defineConst handle name value => exact kept.through (fun env member => kept.bound member name _) handle
  | assign handle name value location => exact kept.through (fun env _ => kept.assigned env name value location) handle

theorem Kept.runAll (kept : Kept scopes) (acts : List HandleAct) : Kept (scopes.runAll acts) := by
  induction acts generalizing scopes with
  | nil => exact kept
  | cons act acts ih => exact ih (kept.run act)

/-! ## Handles -/

/-- Handles are given out and never taken back. -/
theorem handles_run (scopes : SharedScopes) (act : HandleAct) : scopes.handles <+: (scopes.run act).handles := by
  have through : ∀ handle change, (∀ env, scopes.handles <+: (change env).handles) →
      scopes.handles <+: (scopes.through handle change).handles := by
    intro handle change keeps
    unfold SharedScopes.through
    split
    · exact keeps _
    · exact List.prefix_rfl
  cases act with
  | new => exact List.prefix_append _ _
  | child handle => exact through handle _ fun _ => List.prefix_append _ _
  | clone handle => exact through handle _ fun _ => List.prefix_append _ _
  | define handle name value => exact through handle _ fun _ => List.prefix_rfl
  | defineConst handle name value => exact through handle _ fun _ => List.prefix_rfl
  | assign handle name value location => exact through handle _ fun _ => List.prefix_rfl

theorem handles_runAll (scopes : SharedScopes) (acts : List HandleAct) :
    scopes.handles <+: (scopes.runAll acts).handles := by
  induction acts generalizing scopes with
  | nil => exact List.prefix_rfl
  | cons act acts ih => exact (handles_run scopes act).trans (ih (scopes.run act))

theorem interchangeable_of_env {one other : Nat} (first : scopes.handles[one]? = some env)
    (second : scopes.handles[other]? = some env) : Interchangeable scopes one other where
  env := ⟨env, first, second⟩
  get? name := by rw [first, second]
  getLocal? name := by rw [first, second]
  hasLocal name := by rw [first, second]
  define name value := by simp only [run, through, first, second]
  defineConst name value := by simp only [run, through, first, second]
  assign name value location := by simp only [run, through, first, second, and_self]

theorem interchangeable_clone (given : handle < scopes.handles.length) (later : List HandleAct) :
    Interchangeable ((scopes.run (.clone handle)).runAll later) handle scopes.handles.length := by
  have here : scopes.handles[handle]? = some scopes.handles[handle] := List.getElem?_eq_getElem given
  have cloned : (scopes.run (.clone handle)).handles = scopes.handles ++ [scopes.handles[handle]] := by
    rw [run, through, here]
  obtain ⟨added, kept⟩ := handles_runAll (scopes.run (.clone handle)) later
  rw [cloned, List.append_assoc] at kept
  apply interchangeable_of_env
  · rw [← kept, List.getElem?_append_left given]
    exact here
  · rw [← kept, List.getElem?_append_right (Nat.le_refl _), Nat.sub_self]
    rfl

end SharedScopes

/-- Scopes behind handles are lawful, whatever was done with the handles. -/
theorem handles_lawful (acts : List HandleAct) : Lawful (SharedScopes.start.runAll acts) := by
  have kept := SharedScopes.kept_start.runAll acts
  refine ⟨kept.chains, kept.around, kept.unblank, fun handle value => ?_, fun env _ name => ?_,
    fun handle env given => kept.assigns given,
    fun handle given later => SharedScopes.interchangeable_clone given later⟩
  · simp only [SharedScopes.run, SharedScopes.bound_blank, SharedScopes.through_same, and_self]
  · rw [Store.get?, kept.find?, Option.map_map]
    rfl

end MiniGo
