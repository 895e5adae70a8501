import MiniGo.Proofs.Package.Checked
import MiniGo.Proofs.Running.Sessions

/-!
# Opening packages

The scopes of a package that is being loaded, before any of its code runs: its files are opened with
their imports, and its functions are bound. The functions are not ready yet, since what they lead to
has no values.
-/

namespace MiniGo.Running

open Lexical
open Initialization (functionsOf real mem_real real_append)

variable {program : Nat → Facts} {session : Session} {world : World} {index : Nat}
  {package : Package} {scope : ScopeId}

/-- A loaded package has a value for every name that its interface shows. -/
def Offers (world : World) (shown : String × Interface) (loaded : String × PackageRef) : Prop :=
  shown.1 = loaded.1 ∧ shown.2.name = loaded.2.name ∧
    ∀ name, (shown.2.member? name).isSome → HasValue world loaded.2.scope name

/-- The loaded packages are those that the next package is checked against. -/
def AllOffer (world : World) (imports : Interfaces) (session : Session) : Prop :=
  List.Forall₂ (Offers world) imports session.packages

theorem AllOffer.grows {top : Option ScopeId} {later : World} {imports : Interfaces}
    (grows : Grows top world later) (offer : AllOffer world imports session) :
    AllOffer later imports session :=
  offer.imp fun _ _ offers =>
    ⟨offers.1, offers.2.1, fun name member => (offers.2.2 name member).grows grows⟩

theorem lookup_offers {imports : Interfaces} {packages : List (String × PackageRef)} {path : String}
    {interface : Interface} (offer : List.Forall₂ (Offers world) imports packages)
    (known : imports.lookup path = some interface) :
    ∃ ref, packages.lookup path = some ref ∧ interface.name = ref.name ∧
      ∀ name, (interface.member? name).isSome → HasValue world ref.scope name := by
  induction offer with
  | nil => exact nomatch known
  | @cons shown loaded imports packages offers _ ih =>
      obtain ⟨other, shown⟩ := shown
      obtain ⟨_, ref⟩ := loaded
      obtain ⟨rfl, name, members⟩ := offers
      dsimp only at name members
      rw [List.lookup_cons] at known ⊢
      cases same : path == other with
      | true =>
          rw [same] at known
          obtain rfl := Option.some.inj known
          exact ⟨ref, rfl, name, members⟩
      | false =>
          rw [same] at known
          exact ih known

/-- The scope of a package inside the outermost one, of whose names nothing is known. -/
def packageContext : Context := [⟨1, .outer, fun _ => none⟩, ⟨0, .outer, fun _ => none⟩]

/-! ## Files -/

/-- An import of a file is bound to the package that it names. -/
def IsImported (facts : Facts) (world : World) (id : ScopeId) (found : Import) : Prop :=
  importName facts.imports found ≠ blankName →
    world.ready id (importName facts.imports found) ∧
    Means facts world id (importName facts.imports found) (.package found.path)

/-- A file of a package is open, and its imports are bound. -/
structure FileFits (facts : Facts) (world : World) (index : Nat) (file : SourceFile) (position : Nat)
    (id : ScopeId) : Prop where
  old : id < world.size
  place : world.place id = .inside index (2 + position)
  imported : ∀ found ∈ file.program.imports, IsImported facts world id found

theorem IsImported.grows {top : Option ScopeId} {later : World} {facts : Facts} {id : ScopeId}
    {found : Import} (grows : Grows top world later) (imported : IsImported facts world id found) :
    IsImported facts later id found :=
  fun named => ⟨grows.ready _ _ (imported named).1, (imported named).2.grows grows⟩

theorem FileFits.grows {top : Option ScopeId} {later : World} {facts : Facts} {file : SourceFile}
    {position : Nat} {id : ScopeId} (grows : Grows top world later)
    (fits : FileFits facts world index file position id) :
    FileFits facts later index file position id where
  old := Nat.lt_of_lt_of_le fits.old grows.size
  place := by rw [grows.place id fits.old, fits.place]
  imported found member := (fits.imported found member).grows grows

/-- The files of a package are open inside the scope of the package. -/
def FilesFit (facts : Facts) (world : World) (index : Nat) (scope : ScopeId) (first : Nat)
    (files : List SourceFile) (envs : List Env) : Prop :=
  ∀ (offset : Nat) (file : SourceFile), files[offset]? = some file →
    ∃ id, envs[offset]? = some [id, scope, 0] ∧ scope < id ∧
      FileFits facts world index file (first + offset) id

theorem FilesFit.grows {top : Option ScopeId} {later : World} {facts : Facts} {first : Nat}
    {files : List SourceFile} {envs : List Env} (grows : Grows top world later)
    (fits : FilesFit facts world index scope first files envs) :
    FilesFit facts later index scope first files envs :=
  fun offset file found =>
    let ⟨id, here, above, fit⟩ := fits offset file found
    ⟨id, here, above, fit.grows grows⟩

/-- The imports bound so far are all that the scope of a file has. -/
structure ImportsBound (facts : Facts) (world : World) (id : ScopeId) (earlier : List Import) : Prop where
  names : ∀ name, (world.slot id name).isSome → name ∈ real (earlier.map (importName facts.imports))
  imported : ∀ found ∈ earlier, IsImported facts world id found

theorem ImportsBound.skip {facts : Facts} {id : ScopeId} {earlier : List Import} {found : Import}
    (bound : ImportsBound facts world id earlier) (blank : importName facts.imports found = blankName) :
    ImportsBound facts world id (earlier ++ [found]) where
  names name known := by
    simp only [List.map_append, real_append, List.mem_append]
    exact Or.inl (bound.names name known)
  imported other member := by
    rcases List.mem_append.mp member with before | here
    · exact bound.imported other before
    · obtain rfl := List.mem_singleton.mp here
      exact fun real => absurd blank real

theorem ImportsBound.add {facts : Facts} {id : ScopeId} {earlier : List Import} {found : Import}
    {ref : PackageRef} {interface : Interface} (bound : ImportsBound facts world id earlier)
    (named : importName facts.imports found ≠ blankName)
    (free : world.slot id (importName facts.imports found) = none)
    (known : facts.imports.lookup found.path = some interface)
    (members : ∀ member, (interface.member? member).isSome → HasValue world ref.scope member) :
    ImportsBound facts (world.bound id (importName facts.imports found) (.package ref) True) id
      (earlier ++ [found]) where
  names name has := by
    simp only [List.map_append, real_append, List.mem_append]
    by_cases same : name = importName facts.imports found
    · exact Or.inr (mem_real.mpr ⟨by simp [same], by rw [same]; exact named⟩)
    · simp only [World.bound, same, and_false, if_false] at has
      exact Or.inl (bound.names name has)
  imported other member := by
    have grows := grows_bound (.package ref) True free
    rcases List.mem_append.mp member with before | here
    · exact (bound.imported other before).grows grows
    · obtain rfl := List.mem_singleton.mp here
      refine fun _ => ⟨Or.inr ⟨trivial, rfl, rfl⟩, ref, if_pos ⟨rfl, rfl⟩, fun member shown _ => ?_⟩
      rw [Facts.Shows, known] at shown
      exact (members member shown).grows grows

theorem FilesFit.cons {facts : Facts} {first : Nat} {file : SourceFile} {files : List SourceFile}
    {id : ScopeId} {envs : List Env} (above : scope < id) (fit : FileFits facts world index file first id)
    (rest : FilesFit facts world index scope (first + 1) files envs) :
    FilesFit facts world index scope first (file :: files) ([id, scope, 0] :: envs) := by
  intro offset other found
  cases offset with
  | zero =>
      obtain rfl : file = other := by simpa using found
      exact ⟨id, rfl, above, fit⟩
  | succ offset =>
      obtain ⟨id, here, above, fit⟩ := rest offset other found
      refine ⟨id, here, above, ?_⟩
      rwa [show first + (offset + 1) = first + 1 + offset by omega]

namespace Runs

/-- One import is bound, unless it has the blank name. -/
theorem bindImport {file : SourceFile} {position : Nat} {id : ScopeId} {env : Env}
    {earlier list : List Import} {found : Import} {ref : PackageRef} {interface : Interface}
    (checked : FileScope (program index).imports [1, 0] file (2 + position) (program index).table)
    (split : file.program.imports = earlier ++ found :: list) (old : id < world.size)
    (place : world.place id = .inside index (2 + position))
    (bound : ImportsBound (program index) world id earlier)
    (known : (program index).imports.lookup found.path = some interface)
    (members : ∀ name, (interface.member? name).isSome → HasValue world ref.scope name) :
    Runs program session (some id) world
      (Session.perform (fun error => error) (Eval.bind (id :: env)
        (importName (program index).imports found) (.package ref) false))
      (fun later _ => ImportsBound (program index) later id (earlier ++ [found])) := by
  by_cases named : importName (program index).imports found = blankName
  · have binds : Runs program session (some id) world
        (Session.perform (fun error => error) (Eval.bind (id :: env)
          (importName (program index).imports found) (.package ref) false))
        (fun later _ => world = later) := by
      rw [named]
      exact .perform (fun _ => rfl) fun _ => Keeps.bind_blank (by rintro _ ⟨⟩)
    refine binds.weaken ?_
    rintro _ _ _ rfl
    exact bound.skip named
  · have isReal : importName (program index).imports found ∈
        real ((found :: list).map (importName (program index).imports)) :=
      mem_real.mpr ⟨List.mem_map.mpr ⟨found, List.mem_cons_self, rfl⟩, named⟩
    -- The names of a file are distinct, so this one is not bound yet.
    have free : world.slot id (importName (program index).imports found) = none := by
      rw [← Option.not_isSome_iff_eq_none]
      intro known
      have nodup := checked.nodup
      rw [split, List.map_append, real_append] at nodup
      exact List.disjoint_of_nodup_append nodup (bound.names _ known) isReal
    have declared : (world.place id).Declares program (importName (program index).imports found) := by
      rw [place]
      refine (checked.has _).mpr ?_
      rw [split, List.map_append, real_append]
      exact List.mem_append_right _ isReal
    have isFile : (world.place id).IsFile program := by
      rw [place]
      exact ⟨file.path, checked.kind⟩
    have binds : Runs program session (some id) world
        (Session.perform (fun error => error) (Eval.bind (id :: env)
          (importName (program index).imports found) (.package ref) false))
        (fun later _ => world.bound id (importName (program index).imports found) (.package ref) True
          = later) :=
      .perform (fun _ => rfl) fun _ => Keeps.bindNew named old free ⟨rfl, rfl⟩ declared
        (by rintro _ _ ⟨⟩) (fun _ _ => isFile) (Or.inl trivial) (by rintro _ _ _ ⟨⟩) (by rintro _ ⟨⟩)
    refine binds.weaken ?_
    rintro _ _ _ rfl
    exact bound.add named free known members

theorem bindImports {file : SourceFile} {position : Nat} {id : ScopeId} {env : Env}
    {earlier list : List Import}
    (checked : FileScope (program index).imports [1, 0] file (2 + position) (program index).table)
    (offer : AllOffer world (program index).imports session)
    (split : file.program.imports = earlier ++ list) (old : id < world.size)
    (place : world.place id = .inside index (2 + position))
    (bound : ImportsBound (program index) world id earlier) :
    Runs program session (some id) world (Session.bindImports file (id :: env) list)
      (fun later _ => FileFits (program index) later index file position id) := by
  induction list generalizing world earlier with
  | nil =>
      rw [List.append_nil] at split
      exact .pure ⟨old, place, by rw [split]; exact bound.imported⟩
  | cons found list ih =>
      obtain ⟨interface, known⟩ := Option.isSome_iff_exists.mp (checked.loaded found (by simp [split]))
      obtain ⟨ref, loaded, sameName, members⟩ := lookup_offers offer known
      have name : found.alias?.getD ref.name = importName (program index).imports found := by
        rw [importName, known, ← sameName]
        rfl
      unfold Session.bindImports
      refine .get fun machine => ?_
      dsimp only
      rw [loaded]
      dsimp only
      rw [name]
      refine (bindImport checked split old place bound known members).seq fun later _ grows more => ?_
      exact ih (offer.grows grows) (by simp [split]) (Nat.lt_of_lt_of_le old grows.size)
        ((grows.place id old).trans place) more

theorem openFiles {files : List SourceFile} {first : Nat}
    (layout : Layout (program index).imports package (program index).table)
    (inside : ∀ (offset : Nat) (file : SourceFile), files[offset]? = some file →
      package.files[first + offset]? = some file)
    (offer : AllOffer world (program index).imports session)
    (outer : Fits program world index packageContext [scope, 0]) :
    Runs program session none world (Session.openFiles [scope, 0] files)
      (fun later envs => FilesFit (program index) later index scope first files envs) := by
  induction files generalizing world first with
  | nil => exact .pure nofun
  | cons file files ih =>
      have checked := layout.files first file (inside 0 file rfl)
      have enters : Enters (program index) packageContext (2 + first) := ⟨by omega, checked.chain⟩
      have opens : Runs program session none world
          (Session.perform (fun error => error) (Eval.openScope [scope, 0])) _ :=
        .perform (fun _ => rfl) fun _ => Keeps.openScope outer enters
      unfold Session.openFiles
      -- The new scope may get names until the imports are bound; the next file opens one of its own.
      refine opens.bind nofun fun opened inner growsOpen both => ⟨some world.size, fun id old same => ?_, ?_⟩
      · exact absurd (Option.some.inj same) (Nat.ne_of_gt old)
      obtain ⟨rfl, fits⟩ := both
      cases fits.layers with
      | cons fit outerLayers =>
          have order := List.pairwise_cons.mp fits.order
          have place : opened.place world.size = .inside index (2 + first) := by
            rw [fit.place]
            exact if_neg enters.1
          have imports : Runs program session (some world.size) opened
              (Session.bindImports file [world.size, scope, 0] file.program.imports)
              (fun later _ => FileFits (program index) later index file first world.size) :=
            bindImports checked (offer.grows growsOpen) (List.nil_append file.program.imports).symm fit.old place
              ⟨fun name known => by
                obtain ⟨slot, known⟩ := Option.isSome_iff_exists.mp known
                exact absurd (fit.own rfl name slot known) nofun, nofun⟩
          refine imports.bind (fun _ _ same => same)
            fun filled _ growsFill fileFits => ⟨none, nofun, ?_⟩
          have outerFits : Fits program filled index packageContext [scope, 0] := by
            have here : Fits program opened index packageContext [scope, 0] := ⟨outerLayers, order.2⟩
            refine here.grows growsFill fun layer member own => ?_
            simp only [packageContext, List.mem_cons, List.not_mem_nil, or_false] at member
            rcases member with rfl | rfl <;> cases own
          have rest : Runs program session none filled (Session.openFiles [scope, 0] files)
              (fun later envs => FilesFit (program index) later index scope (first + 1) files envs) := ih
            (fun offset other found => by
              have := inside (offset + 1) other found
              rwa [show first + 1 + offset = first + (offset + 1) by omega])
            ((offer.grows growsOpen).grows growsFill) outerFits
          exact rest.seq fun last envs growsRest fitsRest =>
            .pure (.cons (order.1 scope (by simp)) (fileFits.grows growsRest) fitsRest)

end Runs

/-! ## Functions -/

/-- A function of a package is bound, and its value is remembered until it is ready. -/
theorem Keeps.bindFunction {calls : CallStack} {id : ScopeId} {outer : Env} {name : String}
    {closure : Closure} (named : name ≠ blankName) (old : id < world.size)
    (new : world.slot id name = none) (declared : (world.place id).Declares program name)
    (isPackage : (world.place id).IsPackage program) :
    Keeps program calls (some id) world (Eval.bind (id :: outer) name (.function closure) false)
      (fun later _ => (world.bound id name (.value .func false) False).kept id name
        (.function closure) = later) := by
  intro machine inv same
  have binds : Keeps program calls (some id) world
      (Eval.bind (id :: outer) name (.function closure) false)
      (fun later _ => world.bound id name (.value .func false) False = later) :=
    Keeps.bindNew named old new ⟨rfl, rfl⟩ declared (by rintro _ _ ⟨⟩; rfl) nofun (Or.inr isPackage)
      (fun _ _ impossible => impossible.elim) nofun
  obtain ⟨kept, bound, grows, invBound, rfl⟩ := binds machine inv same
  have free : world.constant id name = none := by
    cases known : world.constant id name with
    | none => rfl
    | some value =>
        obtain ⟨slot, found, _⟩ := inv.typed.agrees.2 _ _ _ (inv.typed.constant id name value known)
        rw [new] at found
        exact nomatch found
  have growsKept : Grows none (world.bound id name (.value .func false) False) _ :=
    grows_kept (.function closure) free
  have here : id < machine.store.scopes.size := by
    rw [inv.typed.size]
    exact old
  refine ⟨kept, _, grows.trans (growsKept.widen _), invBound.later growsKept (invBound.typed.kept ?_ free),
    rfl⟩
  exact (Store.find?_bind _ outer _ named here id name).trans (if_pos ⟨rfl, rfl⟩)

theorem Keeps.newClosure {calls : CallStack} {top : Option ScopeId} {name : String}
    {literal : FunctionLiteral} {env : Env} :
    Keeps program calls top world (Eval.makeClosure name literal env)
      (fun later value => world = later ∧
        ∃ number, value = .function ⟨number, name, literal, env⟩) :=
  fun machine inv same =>
    ⟨same, world, Grows.refl top world, ⟨inv.typed, inv.past, inv.once⟩, rfl, machine.closures, rfl⟩

/-- A function with the scope of its file. -/
abbrev Placed := (String × FunctionLiteral) × ScopeId

/-- The functions bound so far are all that the scope of a package has. -/
structure FunctionsFit (world : World) (scope : ScopeId) (bound : List Placed) : Prop where
  names : ∀ name, (world.slot scope name).isSome ↔ name ∈ real (bound.map (·.1.1))
  values : ∀ name slot, world.slot scope name = some slot → slot = .value .func false
  kept : ∀ entry ∈ bound, entry.1.1 ≠ blankName → ∃ number,
    world.constant scope entry.1.1 = some (.function ⟨number, entry.1.1, entry.1.2, [entry.2, scope, 0]⟩)

theorem functionsFit_nil (empty : ∀ name, world.slot scope name = none) :
    FunctionsFit world scope [] where
  names name := by
    rw [empty name]
    simp [real]
  values name slot known := by
    rw [empty name] at known
    cases known
  kept _ member := absurd member List.not_mem_nil

theorem FunctionsFit.skip {bound : List Placed} (fit : FunctionsFit world scope bound) (entry : Placed)
    (blank : entry.1.1 = blankName) : FunctionsFit world scope (bound ++ [entry]) where
  names other := by
    rw [fit.names]
    simp [blank, real]
  values := fit.values
  kept other member real := by
    rcases List.mem_append.mp member with before | here
    · exact fit.kept other before real
    · obtain rfl := List.mem_singleton.mp here
      exact absurd blank real

theorem FunctionsFit.add {bound : List Placed} (fit : FunctionsFit world scope bound) {name : String}
    {literal : FunctionLiteral} {id : ScopeId} (number : Nat) (named : name ≠ blankName)
    (grows : Grows (some scope) world ((world.bound scope name (.value .func false) False).kept scope name
      (.function ⟨number, name, literal, [id, scope, 0]⟩))) :
    FunctionsFit ((world.bound scope name (.value .func false) False).kept scope name
      (.function ⟨number, name, literal, [id, scope, 0]⟩)) scope (bound ++ [((name, literal), id)]) where
  names other := by
    by_cases same : other = name
    · subst same
      simp [World.kept, World.bound, named]
    · have before := fit.names other
      simp only [World.kept, World.bound, same, and_false, if_false]
      rw [before]
      simp [same]
  values other slot known := by
    by_cases same : other = name
    · subst same
      simp only [World.kept, World.bound, and_self, if_true, Option.some.injEq] at known
      exact known.symm
    · simp only [World.kept, World.bound, same, and_false, if_false] at known
      exact fit.values other slot known
  kept entry member real := by
    rcases List.mem_append.mp member with before | here
    · obtain ⟨earlier, known⟩ := fit.kept entry before real
      exact ⟨earlier, grows.constant _ _ _ known⟩
    · obtain rfl := List.mem_singleton.mp here
      exact ⟨number, if_pos ⟨rfl, rfl⟩⟩

def placed (pairs : List (SourceFile × Env)) : List Placed :=
  pairs.flatMap fun pair => pair.1.program.functions.map (·, pair.2.headD 0)

namespace Runs

/-- One function is bound, unless it has the blank name. -/
theorem bindFunction {bound : List Placed} {name : String} {literal : FunctionLiteral} {id : ScopeId}
    (number : Nat) (place : world.place scope = .inside index 1) (old : scope < world.size)
    (isPackage : ∃ name, (program index).kind? 1 = some (.package name))
    (declared : name ≠ blankName → (program index).Declares 1 name)
    (new : name ∉ real (bound.map (·.1.1))) (fit : FunctionsFit world scope bound) :
    Runs program session (some scope) world
      (Session.perform (fun error => error) (Eval.bind [scope, 0] name
        (.function ⟨number, name, literal, [id, scope, 0]⟩) false))
      (fun later _ => FunctionsFit later scope (bound ++ [((name, literal), id)])) := by
  by_cases named : name = blankName
  · have binds : Runs program session (some scope) world
        (Session.perform (fun error => error) (Eval.bind [scope, 0] name
          (.function ⟨number, name, literal, [id, scope, 0]⟩) false))
        (fun later _ => world = later) := by
      rw [named]
      exact .perform (fun _ => rfl) fun _ => Keeps.bind_blank nofun
    refine binds.weaken ?_
    rintro _ _ _ rfl
    exact fit.skip _ named
  · have free : world.slot scope name = none := by
      rw [← Option.not_isSome_iff_eq_none, fit.names]
      exact new
    have binds : Runs program session (some scope) world
        (Session.perform (fun error => error) (Eval.bind [scope, 0] name
          (.function ⟨number, name, literal, [id, scope, 0]⟩) false)) _ :=
      .perform (fun _ => rfl) fun _ => Keeps.bindFunction named old free
        (by rw [place]; exact declared named) (by rw [place]; exact isPackage)
    refine binds.weaken ?_
    rintro _ _ grows rfl
    exact fit.add number named grows

theorem bindFunctions {functions : List (String × FunctionLiteral)} {bound : List Placed} {id : ScopeId}
    (place : world.place scope = .inside index 1) (old : scope < world.size)
    (isPackage : ∃ name, (program index).kind? 1 = some (.package name))
    (declared : ∀ name ∈ real (functions.map (·.1)), (program index).Declares 1 name)
    (nodup : (real (bound.map (·.1.1)) ++ real (functions.map (·.1))).Nodup)
    (fit : FunctionsFit world scope bound) :
    Runs program session (some scope) world
      (Session.bindFunctions [scope, 0] [id, scope, 0] functions)
      (fun later _ => FunctionsFit later scope (bound ++ functions.map (·, id))) := by
  induction functions generalizing world bound with
  | nil => exact .pure (by simpa using fit)
  | cons function functions ih =>
      obtain ⟨name, literal⟩ := function
      -- A function is made once and bound once; its name is new because the functions of a package have distinct names.
      have makes : Runs program session (some scope) world
          (Session.perform (fun error => error) (Eval.makeClosure name literal [id, scope, 0]))
          (fun later value => world = later ∧
            ∃ number, value = .function ⟨number, name, literal, [id, scope, 0]⟩) :=
        .perform (fun _ => rfl) fun _ => Keeps.newClosure
      have isReal (named : name ≠ blankName) : name ∈ real (((name, literal) :: functions).map (·.1)) :=
        mem_real.mpr ⟨List.mem_cons_self, named⟩
      have new : name ∉ real (bound.map (·.1.1)) := fun before =>
        List.disjoint_of_nodup_append nodup before (isReal (mem_real.mp before).2)
      unfold Session.bindFunctions
      refine makes.seq ?_
      rintro _ _ _ ⟨rfl, number, rfl⟩
      refine (bindFunction number place old isPackage (fun named => declared name (isReal named)) new fit).seq
        fun later _ grows more => ?_
      have rest := ih ((grows.place scope old).trans place) (Nat.lt_of_lt_of_le old grows.size)
        (fun other member => declared other (by
          rw [List.map_cons, ← List.singleton_append, real_append]
          exact List.mem_append_right _ member))
        (by
          rw [List.map_append, real_append, List.append_assoc, ← real_append]
          exact nodup) more
      simpa using rest

theorem bindFiles {pairs : List (SourceFile × Env)} {bound : List Placed}
    (place : world.place scope = .inside index 1) (old : scope < world.size)
    (isPackage : ∃ name, (program index).kind? 1 = some (.package name))
    (open' : ∀ pair ∈ pairs, ∃ id, pair.2 = [id, scope, 0])
    (declared : ∀ name ∈ real ((placed pairs).map (·.1.1)), (program index).Declares 1 name)
    (nodup : (real (bound.map (·.1.1)) ++ real ((placed pairs).map (·.1.1))).Nodup)
    (fit : FunctionsFit world scope bound) :
    Runs program session (some scope) world (Session.bindFiles [scope, 0] pairs)
      (fun later _ => FunctionsFit later scope (bound ++ placed pairs)) := by
  induction pairs generalizing world bound with
  | nil => exact .pure (by simpa [placed] using fit)
  | cons pair pairs ih =>
      obtain ⟨file, env⟩ := pair
      obtain ⟨⟨id, same⟩, others⟩ := List.forall_mem_cons.mp open'
      dsimp only at same
      subst same
      have names : ((placed ((file, [id, scope, 0]) :: pairs)).map (·.1.1))
          = file.program.functions.map (·.1) ++ (placed pairs).map (·.1.1) := by
        simp only [placed, List.flatMap_cons, List.map_append, List.map_map]
        rfl
      rw [names, real_append] at nodup declared
      have first : Runs program session (some scope) world
          (Session.bindFunctions [scope, 0] [id, scope, 0] file.program.functions) _ :=
        bindFunctions place old isPackage
          (fun name member => declared name (List.mem_append_left _ member))
          (nodup.sublist ((List.sublist_append_left _ _).append_left _)) fit
      unfold Session.bindFiles
      refine first.seq fun later _ grows fitLater => ?_
      have rest := ih (by rw [grows.place scope old, place]) (Nat.lt_of_lt_of_le old grows.size) others
        (fun name member => declared name (List.mem_append_right _ member)) (by
          have same : (bound ++ file.program.functions.map (·, id)).map (·.1.1)
              = bound.map (·.1.1) ++ file.program.functions.map (·.1) := by
            simp
          rw [same, real_append, List.append_assoc]
          exact nodup) fitLater
      simpa [placed] using rest

end Runs

end MiniGo.Running
