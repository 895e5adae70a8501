import MiniGo.Proofs.Package.Resolving

/-!
# Imports of resolved packages

Packages are checked and loaded in the order in which they are resolved, and each of them leaves behind
what an import of it is looked up in: its interface, then its scope. As a package stands behind all that
it imports, no import is missing when it is bound, neither in a check nor in a load.
-/

namespace MiniGo

variable {package : Package}

/-! ## Imports in a check -/

theorem lookup_isSome_cons {β : Type} {list : List (String × β)} {path : String} (entry : String × β)
    (known : path = entry.1 ∨ (list.lookup path).isSome) : ((entry :: list).lookup path).isSome := by
  rcases known with rfl | known
  · rw [List.lookup_cons_self]
    rfl
  · rw [List.lookup_cons]
    split
    · rfl
    · exact known

/-- Every package that passed its check can be imported. -/
theorem checkAll_lookup {packages : List Package} {imports interfaces : Interfaces}
    (passed : checkAll imports packages = .ok interfaces) {path : String}
    (known : (imports.lookup path).isSome ∨ path ∈ packages.map (·.path)) :
    (interfaces.lookup path).isSome := by
  induction packages generalizing imports with
  | nil =>
      cases passed
      exact known.resolve_right List.not_mem_nil
  | cons package rest ih =>
      obtain ⟨interface, _, passed⟩ := Lexical.checkAll_cons passed
      refine ih passed ?_
      rcases known with before | member
      · exact Or.inl (lookup_isSome_cons _ (Or.inr before))
      · rcases List.mem_cons.mp member with here | later
        · exact Or.inl (lookup_isSome_cons _ (Or.inl here))
        · exact Or.inr later

theorem declare_error {symbol : Symbol} {location : Location} {table : SymbolTable} {error : ResolutionError}
    (refused : Check.declare symbol location table = .error error) :
    error = .redeclared symbol.name location := by
  unfold Check.declare SymbolTable.declare SymbolTable.declareIn at refused
  split at refused
  · cases refused
    rfl
  · cases refused

/-- No import of which the interface is known is refused as missing. -/
theorem declareImports_error {imports : Interfaces} {list : List Import}
    (known : ∀ found ∈ list, (imports.lookup found.path).isSome) {table : SymbolTable} {error : ResolutionError}
    (refused : Package.declareImports imports list table = .error error) (path searched : String) :
    error ≠ .packageNotFound path searched := by
  induction list generalizing table with
  | nil => cases refused
  | cons found rest ih =>
      obtain ⟨interface, here⟩ := Option.isSome_iff_exists.mp (known found List.mem_cons_self)
      unfold Package.declareImports at refused
      rw [here] at refused
      dsimp only at refused
      change Except.bind (Check.declare _ _ table) _ = _ at refused
      cases declared : Check.declare ⟨found.alias?.getD interface.name, .package found.path, none⟩
          found.location table with
      | error first =>
          rw [declared] at refused
          obtain rfl := Except.error.inj refused
          rw [declare_error declared]
          rintro ⟨⟩
      | ok both =>
          rw [declared] at refused
          exact ih (fun other member => known other (List.mem_cons_of_mem _ member)) refused

/-! ## Imports in a load -/

namespace Session

/-- The failure is about an import that is not loaded. -/
def IsMissing (error : Error) : Prop :=
  ∃ file path searched, error = .inFile file (.resolution (.packageNotFound path searched))

/-- A step leaves the loaded packages alone and misses no import. -/
def Settles (packages : List (String × PackageRef)) (run : Run α) : Prop :=
  ∀ session : Session, session.packages = packages →
    (∀ value after, run session = .ok value after → after.packages = packages) ∧
    ∀ error after, run session = .error error after → ¬ IsMissing error

namespace Settles

variable {packages : List (String × PackageRef)}

theorem pure {value : α} : Settles packages (Pure.pure value : Run α) := by
  refine fun session same => ⟨?_, ?_⟩
  · rintro _ _ ⟨⟩
    exact same
  · rintro _ _ ⟨⟩

theorem throw {error : Error} (found : ¬ IsMissing error) :
    Settles packages (MonadExcept.throw error : Run α) := by
  refine fun session same => ⟨?_, ?_⟩
  · rintro _ _ ⟨⟩
  · rintro _ _ ⟨⟩
    exact found

theorem bind {run : Run α} {next : α → Run β} (first : Settles packages run)
    (rest : ∀ value, Settles packages (next value)) : Settles packages (run >>= next) := by
  intro session same
  obtain ⟨keeps, fails⟩ := first session same
  rw [bind_run]
  cases ran : run session with
  | ok value after => exact rest value after (keeps value after ran)
  | error error after =>
      refine ⟨?_, ?_⟩
      · rintro _ _ ⟨⟩
      · rintro _ _ ⟨⟩
        exact fails error after ran

theorem get {next : Session → Run α}
    (rest : ∀ session : Session, session.packages = packages → Settles packages (next session)) :
    Settles packages (MonadState.get >>= next) :=
  fun session same => rest session same session same

theorem perform {place : Error → Error} (places : ∀ halt : Halt, ¬ IsMissing (place halt.toError))
    (action : Eval α) : Settles packages (Session.perform place action) := by
  intro session same
  unfold Session.perform
  cases action session.machine with
  | ok value machine =>
      refine ⟨?_, ?_⟩
      · rintro _ _ ⟨⟩
        exact same
      · rintro _ _ ⟨⟩
  | error halt machine =>
      refine ⟨?_, ?_⟩
      · rintro _ _ ⟨⟩
      · rintro _ _ ⟨⟩
        exact places halt

theorem here (action : Eval α) : Settles packages (Session.perform id action) := by
  refine perform (fun halt => ?_) action
  cases halt <;> rintro ⟨_, _, _, ⟨⟩⟩

theorem bindImports {file : SourceFile} {env : Env} {list : List Import}
    (known : ∀ found ∈ list, (packages.lookup found.path).isSome) :
    Settles packages (Session.bindImports file env list) := by
  induction list with
  | nil => exact pure
  | cons found rest ih =>
      obtain ⟨ref, here⟩ := Option.isSome_iff_exists.mp (known found List.mem_cons_self)
      unfold Session.bindImports
      refine get fun session same => ?_
      rw [same, here]
      exact (Settles.here _).bind fun _ => ih fun other member => known other (List.mem_cons_of_mem _ member)

theorem openFiles {env : Env} {files : List SourceFile}
    (known : ∀ file ∈ files, ∀ found ∈ file.program.imports, (packages.lookup found.path).isSome) :
    Settles packages (Session.openFiles env files) := by
  induction files with
  | nil => exact pure
  | cons file rest ih =>
      unfold Session.openFiles
      refine (here _).bind fun inner => (bindImports (known file List.mem_cons_self)).bind fun _ => ?_
      exact (ih fun other member => known other (List.mem_cons_of_mem _ member)).bind fun _ => pure

theorem bindFunctions {env inner : Env} {functions : List (String × FunctionLiteral)} :
    Settles packages (Session.bindFunctions env inner functions) := by
  induction functions with
  | nil => exact pure
  | cons function rest ih =>
      unfold Session.bindFunctions
      exact (here _).bind fun _ => (here _).bind fun _ => ih

theorem bindFiles {env : Env} {files : List (SourceFile × Env)} :
    Settles packages (Session.bindFiles env files) := by
  induction files with
  | nil => exact pure
  | cons file rest ih =>
      unfold Session.bindFiles
      exact bindFunctions.bind fun _ => ih

theorem runInitializers {env : Env} {inner : List Env} {initializers : List Initializer} :
    Settles packages (Session.runInitializers package env inner initializers) := by
  induction initializers with
  | nil => exact pure
  | cons initializer rest ih =>
      unfold Session.runInitializers
      refine get fun session _ => (perform (fun halt => ?_) _).bind fun _ => ih
      cases halt <;> rintro ⟨_, _, _, ⟨⟩⟩

end Settles

theorem initializationOrder_error {error : Error} (refused : initializationOrder package = .error error) :
    ¬ IsMissing error := by
  unfold initializationOrder Initialization.cycleError at refused
  rintro ⟨file, path, searched, rfl⟩
  grind

theorem bindPackage_settles {packages : List (String × PackageRef)}
    (known : ∀ found ∈ package.imports, (packages.lookup found.path).isSome) :
    Settles packages (bindPackage package) := by
  unfold bindPackage
  refine .get fun session _ => (Settles.here _).bind fun env => ?_
  refine (Settles.openFiles fun file inside found member => ?_).bind fun inner => ?_
  · exact known found (List.mem_flatMap.mpr ⟨file, inside, member⟩)
  refine Settles.bindFiles.bind fun _ => ?_
  cases order : initializationOrder package with
  | error error => exact (Settles.throw (initializationOrder_error order)).bind fun _ => .pure
  | ok order => exact Settles.runInitializers.bind fun _ => .pure

theorem load_ok {session after : Session} (known : ∀ found ∈ package.imports,
      (session.packages.lookup found.path).isSome) (loaded : load package session = .ok () after) :
    ∃ ref, after.packages = (package.path, ref) :: session.packages := by
  have settles := (bindPackage_settles known session rfl).1
  unfold load at loaded
  rw [bind_run] at loaded
  cases bound : bindPackage package session with
  | error error last =>
      rw [bound] at loaded
      cases loaded
  | ok env last =>
      rw [bound] at loaded
      cases loaded
      exact ⟨_, congrArg _ (settles env last bound)⟩

theorem load_error {session after : Session} {error : Error} (known : ∀ found ∈ package.imports,
      (session.packages.lookup found.path).isSome) (failed : load package session = .error error after) :
    ¬ IsMissing error := by
  have settles := (bindPackage_settles known session rfl).2
  unfold load at failed
  rw [bind_run] at failed
  cases bound : bindPackage package session with
  | error first last =>
      rw [bound] at failed
      cases failed
      exact settles _ _ bound
  | ok env last =>
      rw [bound] at failed
      cases failed

/-- Every package that is loaded can be imported, when each of them has its imports before it. -/
theorem loadAll_lookup {packages : List Package} {session after : Session}
    (ordered : ∀ earlier package later, packages = earlier ++ package :: later →
      ∀ found ∈ package.imports, (session.packages.lookup found.path).isSome ∨
        found.path ∈ earlier.map (·.path))
    (loaded : loadAll packages session = .ok () after) {path : String}
    (known : (session.packages.lookup path).isSome ∨ path ∈ packages.map (·.path)) :
    (after.packages.lookup path).isSome := by
  induction packages generalizing session with
  | nil =>
      cases loaded
      exact known.resolve_right List.not_mem_nil
  | cons package rest ih =>
      unfold loadAll at loaded
      rw [bind_run] at loaded
      cases first : load package session with
      | error error last =>
          rw [first] at loaded
          cases loaded
      | ok _ last =>
          rw [first] at loaded
          obtain ⟨ref, packages⟩ := load_ok
            (fun found member => (ordered [] package rest rfl found member).resolve_right List.not_mem_nil) first
          -- Behind the first package the others have their imports before them as they had, or loaded.
          refine ih (fun earlier other later split found member => ?_) loaded ?_
          · rw [packages]
            rcases ordered (package :: earlier) other later (by rw [split]; rfl) found member with before | inside
            · exact Or.inl (lookup_isSome_cons _ (Or.inr before))
            · rcases List.mem_cons.mp inside with here | inside
              · exact Or.inl (lookup_isSome_cons _ (Or.inl here))
              · exact Or.inr inside
          · rw [packages]
            rcases known with before | member
            · exact Or.inl (lookup_isSome_cons _ (Or.inr before))
            · rcases List.mem_cons.mp member with here | later
              · exact Or.inl (lookup_isSome_cons _ (Or.inl here))
              · exact Or.inr later

end Session

/-! ## Resolved packages -/

namespace Workspace

variable {files : FileTree} {start : Workspace} {entry : String} {packages : List Package}

open Relation

theorem transGen_of_isChain {relation : String → String → Prop} {first last : String} {middle : List String}
    (chain : (first :: middle ++ [last]).IsChain relation) : TransGen relation first last := by
  induction middle generalizing first with
  | nil => exact .single (List.isChain_pair.mp chain)
  | cons next rest ih =>
      obtain ⟨step, rest⟩ := List.isChain_cons_cons.mp chain
      exact .head step (ih rest)

theorem IsCycle.transGen {cycle : List String} (isCycle : IsCycle files start entry cycle) :
    ∃ path, Reaches files start entry path ∧ TransGen (Imports files start) path path := by
  obtain ⟨first, middle, rfl, reached, chain⟩ := isCycle
  exact ⟨first, reached, transGen_of_isChain chain⟩

theorem Resolved.earlier {earlier later : List Package} (resolved : Resolved files start entry packages)
    (split : packages = earlier ++ package :: later) {path : String}
    (imports : Imports files start package.path path) : path ∈ earlier.map (·.path) := by
  have paths : packages.map (·.path) = earlier.map (·.path) ++ package.path :: later.map (·.path) := by
    rw [split, List.map_append, List.map_cons]
  exact resolved.arranged.earlier paths imports

theorem Resolved.imported {earlier later : List Package} (resolved : Resolved files start entry packages)
    (split : packages = earlier ++ package :: later) {found : Import} (member : found ∈ package.imports) :
    found.path = Builtin.formattingPath ∨ found.path ∈ earlier.map (·.path) := by
  by_cases formatting : found.path = Builtin.formattingPath
  · exact Or.inl formatting
  · have known := resolved.known package (by rw [split]; simp)
    exact Or.inr (resolved.earlier split ⟨package, known, ⟨found, member, rfl⟩, formatting⟩)

theorem Resolved.check_finds {earlier later : List Package} (resolved : Resolved files start entry packages)
    (split : packages = earlier ++ package :: later) {imports : Interfaces}
    (passed : checkAll .initial earlier = .ok imports) {found : Import} (member : found ∈ package.imports) :
    (imports.lookup found.path).isSome := by
  refine checkAll_lookup passed ((resolved.imported split member).imp (fun same => ?_) id)
  rw [same]
  rfl

theorem Resolved.load_finds {earlier later : List Package} (resolved : Resolved files start entry packages)
    (split : packages = earlier ++ package :: later) {session : Session} {fuel : Nat} {settings : Settings}
    {output : Output} (loaded : Session.loadAll earlier (.start fuel settings output) = .ok () session)
    {found : Import} (member : found ∈ package.imports) : (session.packages.lookup found.path).isSome := by
  have formatting : ∀ path, path = Builtin.formattingPath →
      ((Session.start fuel settings output).packages.lookup path).isSome := by
    rintro _ rfl
    rfl
  refine Session.loadAll_lookup (fun front other back split' found member => ?_) loaded
    ((resolved.imported split member).imp (formatting _) id)
  have whole : packages = front ++ other :: (back ++ package :: later) := by
    rw [split, split', List.append_assoc, List.cons_append]
  exact (resolved.imported whole member).imp (formatting _) id

/-- Resolving an entry succeeds exactly when every package that is reached from it can be read and none
of them imports itself over others. Then every package that is reached is given once, behind all that it
imports, and the entry last; so no import is missing when it is bound, in a check or in a load. An import
cycle that is reported is one. -/
theorem imports_resolved (files : FileTree) (start : Workspace) (entry : String) :
    ((∃ packages after, resolve files entry start = .ok packages after) ↔
      ∀ path, Reaches files start entry path →
        (package? files start path).isSome ∧ ¬ TransGen (Imports files start) path path) ∧
    (∀ packages after, resolve files entry start = .ok packages after →
      (packages.map (·.path)).Nodup ∧
      (∀ path, path ∈ packages.map (·.path) ↔ Reaches files start entry path) ∧
      (∀ package ∈ packages, package? files start package.path = some package) ∧
      (packages.map (·.path)).getLast? = some entry ∧
      ∀ earlier package later, packages = earlier ++ package :: later →
        (∀ path, Imports files start package.path path → path ∈ earlier.map (·.path)) ∧
        (∀ imports, checkAll .initial earlier = .ok imports → ∀ file ∈ package.files,
          ∀ table path searched, Package.declareImports imports file.program.imports table
            ≠ .error (.packageNotFound path searched)) ∧
        (∀ fuel settings output session,
          Session.loadAll earlier (.start fuel settings output) = .ok () session →
          ∀ error last, Session.load package session = .error error last → ∀ file path searched,
            error ≠ .inFile file (.resolution (.packageNotFound path searched)))) ∧
    (∀ cycle after, resolve files entry start = .error (.resolution (.importCycle cycle)) after →
      ∃ first middle, cycle = first :: middle ++ [first] ∧ Reaches files start entry first ∧
        cycle.IsChain (Imports files start)) := by
  -- Whatever a resolution comes to, it tells why; each part reads one of its outcomes.
  have leads := resolve_leads files entry start
  refine ⟨⟨?_, fun sound => ?_⟩, fun packages after ran => ?_, fun cycle after ran => ?_⟩
  · rintro ⟨packages, after, ran⟩ path reaches
    rw [ran] at leads
    have member := leads.arranged.reaches (List.mem_of_getLast? leads.last) reaches
    obtain ⟨package, inside, rfl⟩ := List.mem_map.mp member
    exact ⟨by rw [leads.known package inside]; rfl, leads.arranged.acyclic member⟩
  · cases ran : resolve files entry start with
    | ok packages after => exact ⟨packages, after, rfl⟩
    | error error after =>
        rw [ran] at leads
        rcases leads with ⟨path, reaches, missing, _⟩ | ⟨cycle, _, isCycle⟩
        · have there := (sound path reaches).1
          rw [missing] at there
          cases there
        · obtain ⟨path, reaches, cycle⟩ := isCycle.transGen
          exact absurd cycle (sound path reaches).2
  · rw [ran] at leads
    refine ⟨leads.arranged.nodup, fun path => ⟨fun member => ?_, ?_⟩, leads.known, leads.last,
      fun earlier package later split => ⟨fun path => leads.earlier split, ?_, ?_⟩⟩
    · obtain ⟨package, inside, rfl⟩ := List.mem_map.mp member
      exact leads.reached package inside
    · exact leads.arranged.reaches (List.mem_of_getLast? leads.last)
    · intro imports passed file inside table path searched refused
      refine declareImports_error (fun found member => ?_) refused path searched rfl
      exact leads.check_finds split passed (List.mem_flatMap.mpr ⟨file, inside, member⟩)
    · rintro fuel settings output session loaded error last failed file path searched rfl
      exact Session.load_error (fun found member => leads.load_finds split loaded member) failed
        ⟨file, path, searched, rfl⟩
  · rw [ran] at leads
    rcases leads with ⟨_, _, _, other⟩ | ⟨found, same, isCycle⟩
    · exact absurd rfl (other cycle)
    · cases same
      exact isCycle

end Workspace

end MiniGo
