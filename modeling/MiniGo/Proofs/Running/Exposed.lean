import MiniGo.Proofs.Package.Shuffled
import MiniGo.Proofs.Package.Workspaces
import MiniGo.Proofs.Running.Confined

/-!
# What a loaded package exposes

The checks of a package give its interface, and loading it binds the names of its top level, each in its own
order. `load_exposes` says that both tables agree whenever both succeed: on the names, on which of them may
be assigned to, and on the types of functions. It asks nothing of the session, since code that runs while a
package is loaded leaves the scope of the package alone but for the values of variables.
-/

namespace MiniGo.Running

open Initialization
open Lexical (FormedPackage functionSymbol declaredSymbols kindOf frame)

/-! ## Runs that succeed -/

/-- If a computation succeeds, `post` holds of its value and of the state behind it. -/
def Yields (action : EStateM ε σ α) (state : σ) (post : α → σ → Prop) : Prop :=
  ∀ value last, action state = .ok value last → post value last

namespace Yields

theorem pure {state : σ} {value : α} {post : α → σ → Prop} (holds : post value state) :
    Yields (Pure.pure value : EStateM ε σ α) state post := by
  rintro _ _ ⟨⟩
  exact holds

theorem bind {action : EStateM ε σ α} {next : α → EStateM ε σ β} {state : σ} {post : β → σ → Prop}
    (first : Yields action state fun value middle => Yields (next value) middle post) :
    Yields (action >>= next) state post := by
  intro value last ran
  change EStateM.bind action next state = .ok value last at ran
  unfold EStateM.bind at ran
  cases began : action state with
  | error error after => rw [began] at ran; exact nomatch ran
  | ok found middle =>
      rw [began] at ran
      exact first found middle began value last ran

theorem weaken {action : EStateM ε σ α} {state : σ} {post other : α → σ → Prop} (yields : Yields action state post)
    (implies : ∀ value last, post value last → other value last) : Yields action state other :=
  fun value last ran => implies value last (yields value last ran)

theorem seq {action : EStateM ε σ α} {next : α → EStateM ε σ β} {state : σ} {middle : α → σ → Prop}
    {post : β → σ → Prop} (first : Yields action state middle)
    (rest : ∀ value later, middle value later → Yields (next value) later post) :
    Yields (action >>= next) state post :=
  .bind (first.weaken rest)

theorem perform {place : Error → Error} {action : Eval α} {session : Session} {post : α → Session → Prop}
    (yields : Yields action session.machine fun value machine => post value { session with machine }) :
    Yields (Session.perform place action) session post := by
  intro value last ran
  unfold Session.perform at ran
  cases began : action session.machine with
  | error halt after => rw [began] at ran; exact nomatch ran
  | ok found machine =>
      rw [began] at ran
      obtain ⟨rfl, rfl⟩ := EStateM.Result.ok.inj ran
      exact yields found machine began

end Yields

theorem Confined.yields {bound : ScopeId} {action : Eval α} {machine : Machine} (confined : Confined bound action)
    (old : bound ≤ machine.store.scopes.size) :
    Yields action machine fun _ last => Spares bound machine.store last.store := by
  intro value last ran
  have spares := confined machine old
  rw [ran] at spares
  exact spares

/-! ## The names of a package -/

variable {package : Package} {done : List String} {scope : ScopeId} {outer : Env} {name : String}

/-- What a package declares a name as: a function, or a variable or constant. -/
inductive IsDeclared (package : Package) (name : String) : Binding → Prop where
  | function {closure : Closure} : (name, closure.literal) ∈ functionsOf package →
      IsDeclared package name ⟨.function closure, false⟩
  | value {decl : ValueDecl} {value : Value} : decl ∈ declarationsOf package → name ∈ decl.names →
      IsDeclared package name ⟨value, !decl.isConst⟩

/-- A scope has the names `done`, and every name in it is bound to what the package declares it as. -/
structure Populated (package : Package) (done : List String) (scope : ScopeId) (store : Store) : Prop where
  old : scope < store.scopes.size
  bound : ∀ name ∈ real done, ((store.scope scope).find? name).isSome
  declared : ∀ name binding, (store.scope scope).find? name = some binding →
    name ≠ blankName ∧ IsDeclared package name binding

theorem Rewritten.isSome {before after : Option Binding} (rewritten : Rewritten before after) :
    after.isSome = before.isSome := by
  rcases rewritten with rfl | ⟨_, _, rfl, rfl⟩ <;> rfl

theorem IsDeclared.rewritten {before after : Option Binding} {binding : Binding} (rewritten : Rewritten before after)
    (found : after = some binding) (declared : ∀ binding, before = some binding → IsDeclared package name binding) :
    IsDeclared package name binding := by
  rcases rewritten with rfl | ⟨old, new, rfl, rfl⟩
  · exact declared binding found
  · obtain rfl := Option.some.inj found
    generalize isVariable : (⟨old, true⟩ : Binding) = former at declared
    cases declared former rfl with
    | function _ => exact nomatch isVariable
    | value member named =>
        rw [(Binding.mk.inj isVariable).2]
        exact .value member named

theorem Populated.spares {bound : ScopeId} {before after : Store} (populated : Populated package done scope before)
    (spares : Spares bound before after) (below : scope < bound) : Populated package done scope after where
  old := Nat.lt_of_lt_of_le populated.old spares.size
  bound name member := by
    rw [(spares.slots scope below name).isSome]
    exact populated.bound name member
  declared name binding found := by
    have same := (spares.slots scope below name).isSome
    rw [found, Option.isSome_some] at same
    obtain ⟨before, known⟩ := Option.isSome_iff_exists.mp same.symm
    exact ⟨(populated.declared name before known).1,
      .rewritten (spares.slots scope below name) found fun binding found => (populated.declared name binding found).2⟩

theorem Populated.bind {store : Store} {binding : Binding} (populated : Populated package done scope store)
    (declared : IsDeclared package name binding) :
    Populated package (done ++ [name]) scope (store.bind (scope :: outer) name binding) := by
  by_cases blank : name = blankName
  · rw [blank, Store.bind_blank]
    exact { populated with
      bound := fun other member => populated.bound other (by simpa [real] using member) }
  -- The new binding is that of the name, and all others are as they were.
  · have slot := store.find?_bind outer binding blank populated.old scope
    refine ⟨?_, fun other member => ?_, fun other found known => ?_⟩
    · rw [store.size_bind]
      exact populated.old
    · rw [slot]
      split
      · rfl
      · rename_i differs
        obtain ⟨inside, named⟩ := mem_real.mp member
        rcases List.mem_append.mp inside with before | here
        · exact populated.bound other (mem_real.mpr ⟨before, named⟩)
        · exact absurd ⟨rfl, List.mem_singleton.mp here⟩ differs
    · rw [slot] at known
      split at known
      · rename_i same
        obtain rfl := Option.some.inj known
        rw [same.2]
        exact ⟨blank, declared⟩
      · exact populated.declared other found known

/-! ## Declarations -/

theorem yields_bindTyped {machine : Machine} {type? : Option Ty} {value : Value} {mutable : Bool}
    (populated : Populated package done scope machine.store) (declared : IsDeclared package name ⟨value, mutable⟩) :
    Yields (Eval.bindTyped (scope :: outer) name type? value mutable) machine fun _ last =>
      Populated package (done ++ [name]) scope last.store := by
  rintro _ _ ⟨⟩
  exact (populated.bind declared : Populated package _ scope (machine.store.bind (scope :: outer) name ⟨value, mutable⟩))

theorem yields_bindValues {machine : Machine} {type? : Option Ty} {mutable : Bool} {names : List String}
    {values : List Value} (populated : Populated package done scope machine.store)
    (same : values.length = names.length)
    (declared : ∀ name ∈ names, ∀ value, IsDeclared package name ⟨value, mutable⟩) :
    Yields (Eval.bindValues (scope :: outer) mutable type? names values) machine fun _ last =>
      Populated package (done ++ names) scope last.store := by
  induction names generalizing values done machine with
  | nil =>
      rw [List.append_nil]
      exact .pure populated
  | cons name names ih =>
      obtain ⟨first, rest⟩ := List.forall_mem_cons.mp declared
      cases values with
      | nil => exact nomatch same
      | cons value values =>
          refine .seq (yields_bindTyped populated (first value)) fun _ later bound => ?_
          refine (ih bound (Nat.succ.inj same) rest).weaken fun _ _ all => ?_
          rwa [List.append_assoc, List.singleton_append] at all

theorem yields_declaredValues {machine : Machine} {type? : Option Ty} {location : Location}
    {received : List (Value × Option Expr)} :
    Yields (Eval.declaredValues type? location received) machine fun values _ => values.length = received.length := by
  induction received generalizing machine with
  | nil => exact .pure rfl
  | cons pair received ih =>
      exact .bind fun _ _ _ => .bind (ih.weaken fun _ _ same => .pure (congrArg (· + 1) same))

/-- A declaration of a package binds all of its names. -/
theorem yields_declare {limit fuel : Nat} {env : Env} {decl : ValueDecl} {machine : Machine}
    (populated : Populated package done scope machine.store) (member : decl ∈ declarationsOf package) :
    Yields (Eval.declare limit fuel env (scope :: outer) decl) machine fun _ last =>
      Populated package (done ++ decl.names) scope last.store := by
  have declared : ∀ name ∈ decl.names, ∀ value, IsDeclared package name ⟨value, !decl.isConst⟩ :=
    fun name named value => .value member named
  cases fuel with
  | zero => exact fun _ _ ran => nomatch ran
  | succ fuel =>
      unfold Eval.declare
      split
      · cases decl.type? with
        | none => exact fun _ _ ran => nomatch ran
        | some type => exact yields_bindValues populated (List.length_map _) declared
      -- Evaluating the values binds names in scopes of its own only, so that of the package is spared.
      · refine .seq (((confining _ limit fuel).values).yields (Nat.le_refl _)) fun received later spares => ?_
        split
        · rename_i same
          have kept := populated.spares spares populated.old
          refine .bind fun initial last ran => ?_
          have length := yields_declaredValues _ _ ran
          have unchanged := Confined.declaredValues.yields (Nat.le_refl _) _ _ ran
          exact yields_bindValues (kept.spares unchanged kept.old) (length.trans same) declared
        · exact fun _ _ ran => nomatch ran

/-! ## Loading -/

theorem yields_bindImports {file : SourceFile} {env : Env} {imports : List Import} {bound : ScopeId}
    {session : Session} (above : Above bound env) (old : bound ≤ session.machine.store.scopes.size) :
    Yields (Session.bindImports file env imports) session fun _ last =>
      Spares bound session.machine.store last.machine.store := by
  induction imports generalizing session with
  | nil => exact .pure (.refl _ _)
  | cons found imports ih =>
      unfold Session.bindImports
      refine .bind ?_
      rintro _ _ ⟨⟩
      dsimp only
      split
      · exact .bind fun _ _ ran => nomatch ran
      · rename_i ref _
        have binds : Confined bound (Eval.bind env (found.alias?.getD ref.name) (.package ref) false) :=
          .bindTyped above
        have binds : Yields (Session.perform id (Eval.bind env (found.alias?.getD ref.name) (.package ref) false))
            session fun _ last => Spares bound session.machine.store last.machine.store := .perform (binds.yields old)
        refine binds.seq fun _ later spares => ?_
        exact (ih (old.trans spares.size)).weaken fun _ _ more => spares.trans more

theorem yields_openFiles {env : Env} {files : List SourceFile} {session : Session} :
    Yields (Session.openFiles env files) session fun envs last =>
      envs.length = files.length ∧
        Spares session.machine.store.scopes.size session.machine.store last.machine.store := by
  induction files generalizing session with
  | nil => exact .pure ⟨rfl, .refl _ _⟩
  | cons file files ih =>
      unfold Session.openFiles
      have opens : Yields (Session.perform id (Eval.openScope env)) session fun inner last =>
          Above session.machine.store.scopes.size inner ∧
            Spares session.machine.store.scopes.size session.machine.store last.machine.store := by
        refine .perform ?_
        rintro _ _ ⟨⟩
        exact ⟨fun id first => (Option.some.inj first).le, spares_child _ _ env⟩
      refine .seq opens fun inner opened both => ?_
      obtain ⟨above, spares⟩ := both
      refine .seq (yields_bindImports above spares.size) fun _ filled more => ?_
      refine .seq ih fun envs last both => .pure ⟨congrArg (· + 1) both.1, ?_⟩
      exact (spares.trans more).trans (both.2.lower (spares.trans more).size)

theorem yields_bindFunctions {inner : Env} {functions : List (String × FunctionLiteral)} {session : Session}
    (populated : Populated package done scope session.machine.store)
    (members : ∀ function ∈ functions, function ∈ functionsOf package) :
    Yields (Session.bindFunctions (scope :: outer) inner functions) session fun _ last =>
      Populated package (done ++ functions.map (·.1)) scope last.machine.store := by
  induction functions generalizing session done with
  | nil =>
      rw [List.map_nil, List.append_nil]
      exact .pure populated
  | cons function functions ih =>
      obtain ⟨first, rest⟩ := List.forall_mem_cons.mp members
      unfold Session.bindFunctions
      refine .bind (.perform ?_)
      rintro _ _ ⟨⟩
      let closure : Closure := ⟨session.machine.closures, function.1, function.2, inner⟩
      let made : Session := { session with machine := { session.machine with closures := session.machine.closures + 1 } }
      have binds : Yields (Session.perform id (Eval.bind (scope :: outer) function.1 (.function closure) false)) made
          fun _ last => Populated package (done ++ [function.1]) scope last.machine.store :=
        .perform (yields_bindTyped populated (.function first))
      refine binds.seq fun _ later bound => ?_
      refine (ih bound rest).weaken fun _ _ all => ?_
      rwa [List.append_assoc, List.singleton_append] at all

theorem yields_bindFiles {pairs : List (SourceFile × Env)} {session : Session}
    (populated : Populated package done scope session.machine.store)
    (members : ∀ pair ∈ pairs, pair.1 ∈ package.files) :
    Yields (Session.bindFiles (scope :: outer) pairs) session fun _ last =>
      Populated package (done ++ (pairs.map (·.1)).flatMap fun file => file.program.functions.map (·.1)) scope
        last.machine.store := by
  induction pairs generalizing session done with
  | nil =>
      rw [List.map_nil, List.flatMap_nil, List.append_nil]
      exact .pure populated
  | cons pair pairs ih =>
      obtain ⟨first, rest⟩ := List.forall_mem_cons.mp members
      have functions : ∀ function ∈ pair.1.program.functions, function ∈ functionsOf package :=
        fun function member => List.mem_flatMap.mpr ⟨pair.1, first, member⟩
      refine .seq (yields_bindFunctions populated functions) fun _ later bound => ?_
      refine (ih bound rest).weaken fun _ _ all => ?_
      rwa [List.map_cons, List.flatMap_cons, ← List.append_assoc]

theorem yields_runInitializers {envs : List Env} {items : List Initializer} {session : Session}
    (populated : Populated package done scope session.machine.store)
    (members : ∀ item ∈ items, item.decl ∈ declarationsOf package) :
    Yields (Session.runInitializers package (scope :: outer) envs items) session fun _ last =>
      Populated package (done ++ items.flatMap (·.decl.names)) scope last.machine.store := by
  induction items generalizing session done with
  | nil =>
      rw [List.flatMap_nil, List.append_nil]
      exact .pure populated
  | cons item items ih =>
      obtain ⟨first, rest⟩ := List.forall_mem_cons.mp members
      unfold Session.runInitializers
      refine .bind ?_
      rintro _ _ ⟨⟩
      have declares : Yields (Session.perform (.inFile (package.filePath item.file))
            (Eval.declare session.settings.maxCallDepth session.fuel ((envs[item.file]?).getD (scope :: outer))
              (scope :: outer) item.decl)) session
          fun _ last => Populated package (done ++ item.decl.names) scope last.machine.store :=
        .perform (yields_declare populated first)
      refine declares.seq fun _ later bound => ?_
      refine (ih bound rest).weaken fun _ _ all => ?_
      rwa [List.flatMap_cons, ← List.append_assoc]

theorem flatMap_order (package : Package) (indices : List Nat) :
    (indices.filterMap ((initializers package)[·]?)).flatMap (·.decl.names)
      = indices.flatMap (namesAt package) := by
  induction indices with
  | nil => rfl
  | cons index indices ih =>
      rw [List.filterMap_cons, List.flatMap_cons, ← ih, namesAt]
      cases (initializers package)[index]? <;> rfl

/-- The scope of a package has the names of the package when its names are bound. -/
theorem yields_bindPackage {session : Session} {indices : List Nat}
    (order : initializationOrder package = .ok (indices.filterMap ((initializers package)[·]?))) :
    Yields (Session.bindPackage package) session fun env last =>
      Populated package (topNames package indices) (env.headD 0) last.machine.store := by
  unfold Session.bindPackage
  refine .bind ?_
  rintro _ _ ⟨⟩
  refine .bind (.perform ?_)
  rintro _ _ ⟨⟩
  -- Opening the files adds scopes behind that of the package, then functions and declarations are bound in it.
  refine .seq yields_openFiles fun envs filled both => ?_
  obtain ⟨length, spares⟩ := both
  have opened : Populated package [] session.machine.store.scopes.size
      (session.machine.store.child session.outermost).2 := by
    have empty := session.machine.store.scope_child_new session.outermost
    refine ⟨by rw [Store.size_child]; exact Nat.lt_succ_self _, nofun, fun name binding found => ?_⟩
    rw [empty] at found
    exact nomatch found
  have inFiles := opened.spares spares opened.old
  refine .seq (yields_bindFiles inFiles fun pair member => (List.of_mem_zip member).1) fun _ bound functions => ?_
  rw [List.nil_append, List.map_fst_zip length.ge, ← List.map_flatMap] at functions
  rw [order]
  have members : ∀ item ∈ indices.filterMap ((initializers package)[·]?), item.decl ∈ declarationsOf package := by
    intro item member
    obtain ⟨index, _, found⟩ := List.mem_filterMap.mp member
    exact mem_declarationsOf found
  refine .seq (yields_runInitializers functions members) fun _ last all => .pure ?_
  rw [flatMap_order] at all
  exact all

/-! ## Interfaces -/

/-- A binding is what a member of an interface says: a variable may be assigned to and nothing else may, and a
function has the type of the member. -/
structure Suits (member : Member) (binding : Binding) : Prop where
  mutable : binding.mutable = true ↔ member.kind = .var
  function : member.kind = .function → ∃ closure, binding.value = .function closure ∧
    member.type? = some (.func closure.literal.signature.type)

/-- A scope of a store has exactly the names that an interface has, each bound to what its member says. -/
structure Exposes (interface : Interface) (store : Store) (scope : ScopeId) : Prop where
  names : ∀ name, ((store.scope scope).find? name).isSome ↔ name ∈ interface.members.map (·.1)
  suits : ∀ name binding member, (store.scope scope).find? name = some binding →
    interface.member? name = some member → Suits member binding

theorem mem_keys (interface : Interface) (name : String) :
    name ∈ interface.members.map (·.1) ↔ (interface.member? name).isSome := by
  rw [Interface.member?, List.lookup_isSome_iff, List.mem_map]
  simp only [beq_iff_eq, @eq_comm _ name]

theorem kind_of_declared {decl : ValueDecl} {types : List (Option Ty)} {symbol : Symbol}
    (member : symbol ∈ declaredSymbols decl types) : symbol.kind = kindOf decl := by
  obtain ⟨_, _, rfl⟩ := List.mem_map.mp member
  rfl

/-- The checks of a package give every name that it declares the symbol that suits its declaration. -/
theorem suits_of_declared {imports : Interfaces} {top : Lexical.Frame} {binding : Binding}
    (fits : Lexical.Fits imports package top) (named : name ≠ blankName) (declared : IsDeclared package name binding) :
    ∃ symbol, top name = some symbol ∧ Suits ⟨symbol.kind, symbol.type?⟩ binding := by
  cases declared with
  | @function closure member =>
      obtain ⟨file, inside, written⟩ := List.mem_flatMap.mp member
      exact ⟨functionSymbol (name, closure.literal), (fits.functions file inside _ written).symbol named,
        ⟨nofun, nofun⟩, fun _ => ⟨closure, rfl, rfl⟩⟩
  | @value decl value member listed =>
      obtain ⟨file, inside, written⟩ := List.mem_flatMap.mp member
      obtain ⟨types, _, same, symbols⟩ := fits.declarations file inside decl written
      rw [← Lexical.names_declaredSymbols same] at listed
      obtain ⟨symbol, known, rfl⟩ := List.mem_map.mp listed
      refine ⟨symbol, symbols symbol known named, ?_⟩
      rw [kind_of_declared known, kindOf]
      cases decl.isConst
      · exact ⟨⟨fun _ => rfl, fun _ => rfl⟩, nofun⟩
      · exact ⟨⟨nofun, nofun⟩, nofun⟩

/-- A scope that is populated with a package that was checked holds what the interface of the package says. -/
theorem Populated.exposes {imports : Interfaces} {table : SymbolTable} {interface : Interface} {indices : List Nat}
    {store : Store} (populated : Populated package (topNames package indices) scope store)
    (prepared : Lexical.Prepared imports package table indices)
    (fits : Lexical.Fits imports package (frame table 1)) (same : interface = package.interfaceOf table 1) :
    Exposes interface store scope := by
  have regular := prepared.layout.regular
  subst same
  constructor
  · intro name
    rw [mem_keys, Lexical.member?_interfaceOf regular, Option.isSome_map]
    constructor
    · intro bound
      obtain ⟨binding, found⟩ := Option.isSome_iff_exists.mp bound
      -- A binding comes from a declaration of the package, and that declared a symbol as well.
      obtain ⟨named, declared⟩ := populated.declared name binding found
      obtain ⟨symbol, known, _⟩ := suits_of_declared fits named declared
      rw [known]
      rfl
    · rw [Lexical.isSome_frame regular, prepared.names]
      exact populated.bound name
  · intro name binding member found known
    obtain ⟨named, declared⟩ := populated.declared name binding found
    obtain ⟨symbol, top, suits⟩ := suits_of_declared fits named declared
    rw [Lexical.member?_interfaceOf regular, top] at known
    obtain rfl := Option.some.inj known
    exact suits

/-- A package that passes its checks and is loaded then has a scope that holds what its interface says. -/
theorem load_exposes {imports : Interfaces} {interface : Interface} {session last : Session}
    (formed : FormedPackage package) (checked : package.check imports = .ok interface)
    (loaded : Session.load package session = .ok () last) :
    ∃ found, last.packages.lookup package.path = some found ∧ Exposes interface last.machine.store found.scope := by
  obtain ⟨table, ran⟩ := Lexical.check_ok checked
  obtain ⟨fits, _, same⟩ := Lexical.fits_of_checking formed ran
  obtain ⟨indices, prepared, _⟩ := Lexical.checking_ok formed ran
  have loads : Yields (Session.load package) session fun _ last => ∃ found,
      last.packages.lookup package.path = some found ∧ Exposes interface last.machine.store found.scope := by
    refine .seq (yields_bindPackage prepared.order) fun env bound populated => ?_
    rintro _ _ ⟨⟩
    exact ⟨_, List.lookup_cons_self, populated.exposes prepared fits same⟩
  exact loads _ _ loaded

namespace Mixed

/-- A variable beside a blank name, and a constant. -/
def values : Program where
  package := "main"
  imports := []
  declarations :=
    [.values ⟨false, ["total", "_"], none, [.call (.identifier "pair" ⟨2, 16⟩) [] ⟨2, 20⟩], ⟨2, 1⟩⟩,
      .values ⟨true, ["limit"], none, [.integer 2], ⟨3, 1⟩⟩]

/-- The function that gives their values, and a variable that it writes. -/
def function : Program where
  package := "main"
  imports := []
  declarations :=
    [.values ⟨false, ["count"], none, [.integer 0], ⟨2, 1⟩⟩,
      .function "pair" ⟨⟨[], [.int, .int], []⟩,
        [.assign ["count"] [.integer 5] ⟨4, 2⟩,
          .return [.identifier "limit" ⟨5, 9⟩, .identifier "count" ⟨5, 16⟩] ⟨5, 2⟩], ⟨3, 1⟩⟩]

def whole : Package := ⟨"main", "main", [⟨"first.go", values⟩, ⟨"second.go", function⟩]⟩

def interface : Interface := ⟨"main", [("total", ⟨.var, some .int⟩), ("count", ⟨.var, some .int⟩),
  ("limit", ⟨.const, some .int⟩), ("pair", ⟨.function, some (.func ⟨[], [.int, .int]⟩)⟩)]⟩

@[irreducible] def loaded : Session :=
  match Session.load whole (Session.start 100 .default .empty) with
  | .ok _ session | .error _ session => session

theorem formed : FormedPackage whole := by
  have first : parseText "package main\nvar total, _ = pair()\nconst limit = 2\n" = .ok values := by
    unfold values
    cbv
  have second : parseText
      "package main\nvar count = 0\nfunc pair() (int, int) \x7b\n\tcount = 5\n\treturn limit, count\n\x7d\n"
      = .ok function := by
    unfold function
    cbv
  exact List.forall_mem_cons.mpr ⟨Syntax.formed_parseText first,
    List.forall_mem_singleton.mpr (Syntax.formed_parseText second)⟩

theorem checked : whole.check .initial = .ok interface := by
  unfold whole values function interface
  cbv

theorem succeeds : Session.load whole (Session.start 100 .default .empty) = .ok () loaded := by
  have outcome : Session.load whole (Session.start 100 .default .empty)
      = .ok () (behind (Session.load whole (Session.start 100 .default .empty))) :=
    ok_of_value? (by decide +kernel)
  unfold loaded
  rw [outcome]

end Mixed

/-- The package is checked and loaded, and its scope has its four names and not the blank one. -/
theorem mixed_package_exposed :
    FormedPackage Mixed.whole ∧ Mixed.whole.check .initial = .ok Mixed.interface ∧
    Session.load Mixed.whole (Session.start 100 .default .empty) = .ok () Mixed.loaded ∧
    ∃ found, Mixed.loaded.packages.lookup "main" = some found ∧
      Exposes Mixed.interface Mixed.loaded.machine.store found.scope ∧
      ((Mixed.loaded.machine.store.scope found.scope).find? blankName).isSome = false := by
  obtain ⟨found, known, exposes⟩ := load_exposes Mixed.formed Mixed.checked Mixed.succeeds
  refine ⟨Mixed.formed, Mixed.checked, Mixed.succeeds, found, known, exposes, ?_⟩
  rw [← Bool.not_eq_true, exposes.names]
  decide

end MiniGo.Running
