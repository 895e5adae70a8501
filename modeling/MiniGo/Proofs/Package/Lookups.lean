import MiniGo.Proofs.Lexical.Lookups
import MiniGo.Proofs.Package.Shuffled

/-!
# Free names are what the checker looks up

The order of initialization is made from free names (`FreeNames`), which know of no symbols; the checker looks names
up in its table. For a package that passes its checks both see the same: of the names of the package, the free ones
of a function or of the values of a declaration are those that its check finds in the scope of the package
(`free_names_looked_up`). `Visits` says when the check comes to which code and with which table.
-/

namespace MiniGo.Lexical

open Initialization
open Syntax (Formed.exprs Formed.function)

variable {imports : Interfaces} {package : Package} {table other between after opened : SymbolTable}
  {file : SourceFile} {position : Nat} {done : List Nat}

/-- Code at the top level of a package: the values of a declaration, or a function. -/
inductive TopCode where
  | values (decl : ValueDecl)
  | function (name : String) (literal : FunctionLiteral)

namespace TopCode

/-- The free names of code at the top level. -/
def free : TopCode → List String
  | values decl => FreeNames.ofExprs [] decl.values
  | function _ literal => FreeNames.ofFunction [] literal

/-- The check of code at the top level. -/
def check (imports : Interfaces) : TopCode → Check Unit
  | values decl => Check.valueDecl imports 1 decl
  | function name literal => Check.function imports name false literal

/-- Code as it is read. -/
def Formed : TopCode → Prop
  | values decl => Formed.exprs decl.values
  | function _ literal => Formed.function literal

/-- Code stands in a file. -/
def In (file : SourceFile) : TopCode → Prop
  | values decl => decl ∈ file.program.valueDecls
  | function name literal => (name, literal) ∈ file.program.functions

end TopCode

/-- The checks of a package before those of its code: functions are declared and files opened. -/
def opening (imports : Interfaces) (package : Package) : Package.Checking (List Nat) := do
  modify (·.enter (.package package.name))
  let scope := (← get).current
  package.files.forM fun file =>
    Package.checkIn file.path (Package.declareFunctions scope file.program.functions)
  Package.openFiles imports scope package.files

/-- The check of a package comes to code at its top level with a table: to values in the order of initialization, and
to functions behind all of them. -/
inductive Visits (imports : Interfaces) (package : Package) : SymbolTable → TopCode → Prop
  | values {opened table : SymbolTable} {ids : List Nat} {before later : List Initializer} {item : Initializer} :
      opening imports package SymbolTable.initial = .ok (ids, opened) →
      initializationOrder package = .ok (before ++ item :: later) →
      Package.checkInitializers imports package 1 ids before opened = .ok ((), table) →
      Visits imports package (table.resume ((ids[item.file]?).getD 1)) (.values item.decl)
  | function {opened initialized between table : SymbolTable} {ids : List Nat} {order : List Initializer}
      {before later : List (SourceFile × Nat)} {file : SourceFile} {scope : Nat}
      {earlier others : List (String × FunctionLiteral)} {name : String} {literal : FunctionLiteral} :
      opening imports package SymbolTable.initial = .ok (ids, opened) →
      initializationOrder package = .ok order →
      Package.checkInitializers imports package 1 ids order opened = .ok ((), initialized) →
      package.files.zip ids = before ++ (file, scope) :: later →
      Package.checkBodies imports before initialized = .ok ((), between) →
      file.program.functions = earlier ++ (name, literal) :: others →
      Package.checkFunctions imports scope earlier between = .ok ((), table) →
      Visits imports package (table.resume scope) (.function name literal)

/-- A name stands for a variable, a constant or a function of a package. -/
def IsTop (package : Package) (name : String) : Prop := ((entities package).lookup name).isSome

/-- A check looks a name up and finds it in a scope; of what was looked up before nothing is kept. -/
def LooksUp (check : Check Unit) (table : SymbolTable) (scope : Nat) (name : String) : Prop :=
  ∃ after, check { table with uses := fun _ => False } = .ok ((), after) ∧ Found after scope name

/-! ## Checks with nothing looked up before -/

theorem Stands.forget {blocks : List Frame} {outer : Frame} (stands : Stands table blocks outer)
    (uses : Use → Prop) : Stands { table with uses } blocks outer :=
  ⟨⟨stands.regular.current, stands.regular.outer, stands.regular.keyed, stands.regular.imported,
    stands.regular.innermost⟩, stands.around⟩

theorem Faces.forget {count scope : Nat} {shown : String → Prop} (faces : Faces table count scope shown)
    (uses : Use → Prop) : Faces { table with uses } count scope shown :=
  ⟨faces.old, faces.plain, faces.apart, faces.shows⟩

/-- Names can be declared wherever the scope has the same names. -/
theorem declareValues_alike {id : Nat} {kind : SymbolKind} {location : Location} {names : List String}
    {types : List (Option Ty)} (old : id < table.scopes.size) (old' : id < other.scopes.size)
    (same : ∀ name, (other.findIn? id name).isSome = (table.findIn? id name).isSome)
    (ran : Check.declareValues id kind location names types table = .ok ((), after)) :
    ∃ last, Check.declareValues id kind location names types other = .ok ((), last) := by
  induction names generalizing types table other with
  | nil => exact ⟨other, rfl⟩
  | cons name names ih =>
      cases types with
      | nil => exact ⟨other, rfl⟩
      | cons type? types =>
          obtain ⟨_, between, declared, rest⟩ := bind_ok ran
          have fresh : name = blankName ∨ table.findIn? id name = none := by
            unfold Check.declareIn SymbolTable.declareIn at declared
            split at declared
            · exact nomatch declared
            · rename_i free
              by_cases blank : name = blankName
              · exact .inl blank
              · exact .inr (by simpa [blank] using free)
          obtain rfl : table.insert id ⟨name, kind, type?⟩ = between := by
            rw [declareIn_run location fresh] at declared
            exact congrArg Prod.snd (Except.ok.inj declared)
          -- A name that is free in one table is free in the other, and they stay alike behind the declaration.
          have fresh' : name = blankName ∨ other.findIn? id name = none := by
            refine fresh.imp_right fun none => ?_
            have none' := same name
            rw [none] at none'
            exact Option.isNone_iff_eq_none.mp (by simpa using none')
          have same' : ∀ found, ((other.insert id ⟨name, kind, type?⟩).findIn? id found).isSome
              = ((table.insert id ⟨name, kind, type?⟩).findIn? id found).isSome := by
            intro found
            by_cases blank : name = blankName
            · rw [findIn?_insert_blank blank, findIn?_insert_blank blank, same]
            · rw [findIn?_insert old blank, findIn?_insert old' blank]
              split
              · rfl
              · exact same found
          obtain ⟨last, passed⟩ := ih (by rwa [size_insert]) (by rwa [size_insert]) same' rest
          exact ⟨last, (bind_run (declareIn_run location fresh')).trans passed⟩

/-! ## What the check of code looks up -/

theorem importFrame_package {list : List Import} {name : String} {symbol : Symbol}
    (found : importFrame imports list name = some symbol) : meaningOf symbol.kind ≠ .value := by
  rcases addAll_cases found with none | ⟨member, _⟩
  · exact nomatch none
  · obtain ⟨_, _, rfl⟩ := List.mem_map.mp member
    exact nofun

/-- In a file, the scope of the package shows the names that the file does not import. -/
theorem Shows.faces (shows : Shows imports package table) (found : package.files[position]? = some file) :
    Faces (table.resume (2 + position)) 0 1 fun name =>
      importFrame imports file.program.imports name = none ∧ (frame table 1 name).isSome := by
  have scope := shows.layout.files position file found
  have adds := adds_resume shows.layout.regular (2 + position)
  have old := lt_of_kindIn? shows.layout.kind
  refine ⟨Nat.lt_of_lt_of_le old adds.scopes, fun path => ?_, List.not_mem_nil, fun name => ?_⟩
  · rw [kindIn?_extends adds.toExtends old, shows.layout.kind]
    exact nofun
  · rw [current_resume scope.old, adds.toExtends.chain scope.old, scope.chain, List.drop_zero, firstOf]
    have has : ∀ id, ((table.resume (2 + position)).findIn? id name).isSome = (frame table id name).isSome := by
      intro id
      rw [← isSome_frame adds.regular, frame_resume]
    have apart : 2 + position ≠ 1 := by omega
    simp only [List.find?_cons, has, shows.files position file found, List.find?_nil]
    cases importFrame imports file.program.imports name <;> cases (frame table 1 name).isSome <;>
      cases (frame table 0 name).isSome <;> simp [apart]

theorem Shows.package_resume (shows : Shows imports package table) (id : Nat) :
    kindIn? (table.resume id) 1 = some (.package package.name) :=
  (adds_resume shows.layout.regular id).toExtends.kindIn? shows.layout.kind

/-- Code passes its check with nothing looked up before, and then finds its free names outside. -/
theorem TopCode.looked {code : TopCode} (formed : code.Formed) {outer : Frame} {shown : String → Prop}
    (stands : Stands table [] outer) (faces : Faces table 0 1 shown) (apart : 1 ≠ table.current)
    (ran : code.check imports table = .ok ((), after)) :
    blankName ∉ code.free ∧ ∃ last, code.check imports { table with uses := fun _ => False } = .ok ((), last) ∧
      (∀ name, Found last 1 name ↔ name ∈ code.free ∧ shown name) ∧
      ∀ name ∈ code.free, ∃ symbol, outer name = some symbol ∧ meaningOf symbol.kind = .value := by
  -- Whether code passes does not depend on what was looked up before, so the check is run again on a table in which
  -- nothing was, and all that is found behind it was looked up by the code.
  have stands' := stands.forget fun _ => False
  have faces' := faces.forget fun _ => False
  have nothing : ∀ name, ¬ Found { table with uses := fun _ => False } 1 name := fun name found => by
    obtain ⟨_, used, _⟩ := found
    exact used
  have same : Alike code.free outer outer := ⟨fun _ _ => rfl, rfl, fun _ _ _ _ => Iff.rfl⟩
  cases code with
  | function name literal =>
      obtain ⟨_, real, passes⟩ := function_carries literal name false formed _ _ _ _ _ _ stands covers_nil ran
      obtain ⟨last, passed, _⟩ := passes _ outer stands' same
      obtain ⟨_, looked⟩ := function_looks literal name false formed _ _ _ _ _ _ _ _ stands' covers_nil faces' passed
      exact ⟨real, last, passed, fun name => (looked.found name).trans (or_iff_right (nothing name)), looked.plain⟩
  | values decl =>
      rw [TopCode.check, valueDecl_eq] at ran
      obtain ⟨types, between, decided, declares⟩ := bind_ok ran
      obtain ⟨continues, real, passes⟩ := carries_initializer formed _ _ _ _ _ _ stands covers_nil decided
      obtain ⟨middle, passed, continues'⟩ := passes _ outer stands' same
      have looks : Looks (FreeNames.ofExprs · decl.values) (decideTypes imports decl) :=
        looks_decideTypes (expressions_looks decl.values formed)
      obtain ⟨_, looked⟩ := looks _ _ _ _ _ _ _ _ stands' covers_nil faces' passed
      have old : 1 < middle.scopes.size := Nat.lt_of_lt_of_le faces.old continues'.scopes
      obtain ⟨last, declared⟩ := declareValues_alike (Nat.lt_of_lt_of_le faces.old continues.scopes) old
        (fun name => by rw [continues'.fixed 1 faces.old nofun, continues.fixed 1 faces.old nofun]; rfl) declares
      refine ⟨real, last, ?_, fun name => ?_, looked.plain⟩
      · rw [TopCode.check, valueDecl_eq]
        exact (bind_run passed).trans declared
      · have inward := inward_declareValues 1 (kindOf decl) decl.location decl.names types _ _ _ declared
        rw [inward.2 1 (continues'.current ▸ apart), looked.found]
        exact or_iff_right (nothing name)

/-- Where all names of the package that are free in code are declared, its check finds these in the scope of the
package. -/
theorem Shows.looksUp {code : TopCode} (shows : Shows imports package table)
    (has : HasTop (topNames package done) table) (found : package.files[position]? = some file) (formed : code.Formed)
    (before : ∀ name ∈ code.free, ∀ needed, Leads (entities package) name needed → needed ∈ done)
    (ran : code.check imports (table.resume (2 + position)) = .ok ((), after)) (name : String) :
    name ∈ code.free ∧ IsTop package name ↔ LooksUp (code.check imports) (table.resume (2 + position)) 1 name := by
  have current := current_resume (shows.layout.files position file found).old
  obtain ⟨real, last, passed, looked, plain⟩ := TopCode.looked formed (shows.stands found) (shows.faces found)
    (by rw [current]; omega) ran
  -- All that the free names lead to is declared here, so a name of the package is one that the scope has.
  have top : name ∈ code.free → (IsTop package name ↔ (frame table 1 name).isSome) := fun isFree => by
    rw [has name]
    refine ⟨fun isTop => ?_, lookup_of_mem_topNames⟩
    exact Ready.mem_topNames ⟨fun blank => real (blank ▸ isFree), isTop, before name isFree⟩
  have notImported : name ∈ code.free → importFrame imports file.program.imports name = none := fun isFree => by
    cases imported : importFrame imports file.program.imports name with
    | none => rfl
    | some symbol =>
        obtain ⟨other, seen, value⟩ := plain name isFree
        rw [outside, imported] at seen
        obtain rfl := Option.some.inj seen
        exact absurd value (importFrame_package imported)
  have finds : LooksUp (code.check imports) (table.resume (2 + position)) 1 name ↔ Found last 1 name := by
    constructor
    · rintro ⟨after, ran, isFound⟩
      obtain rfl := congrArg Prod.snd (Except.ok.inj (passed.symm.trans ran))
      exact isFound
    · exact fun isFound => ⟨last, passed, isFound⟩
  rw [finds, looked]
  constructor
  · rintro ⟨isFree, isTop⟩
    exact ⟨isFree, notImported isFree, (top isFree).mp isTop⟩
  · rintro ⟨isFree, _, declared⟩
    exact ⟨isFree, (top isFree).mpr declared⟩

/-! ## Where the check comes to code -/

theorem checkInitializers_append (scope : Nat) (ids : List Nat) (first second : List Initializer) :
    Package.checkInitializers imports package scope ids (first ++ second)
      = Package.checkInitializers imports package scope ids first >>= fun _ =>
        Package.checkInitializers imports package scope ids second := by
  induction first with
  | nil => exact (pure_bind _ _).symm
  | cons item first ih => simp only [List.cons_append, Package.checkInitializers, bind_assoc, ih]

theorem checkFunctions_append (scope : Nat) (first second : List (String × FunctionLiteral)) :
    Package.checkFunctions imports scope (first ++ second)
      = Package.checkFunctions imports scope first >>= fun _ => Package.checkFunctions imports scope second := by
  induction first with
  | nil => exact (pure_bind _ _).symm
  | cons function first ih => simp only [List.cons_append, Package.checkFunctions, bind_assoc, ih]

theorem checkBodies_append (first second : List (SourceFile × Nat)) :
    Package.checkBodies imports (first ++ second)
      = Package.checkBodies imports first >>= fun _ => Package.checkBodies imports second := by
  induction first with
  | nil => exact (pure_bind _ _).symm
  | cons pair first ih => simp only [List.cons_append, Package.checkBodies, bind_assoc, ih]

theorem goes_on {ε α β : Type} {one : StateT SymbolTable (Except ε) α} {two : α → StateT SymbolTable (Except ε) β}
    {value : α} {outcome : β} (began : one table = .ok (value, between))
    (ran : (one >>= two) table = .ok (outcome, after)) : two value between = .ok (outcome, after) :=
  (bind_run began).symm.trans ran

theorem opening_ok {ids : List Nat} (ran : opening imports package SymbolTable.initial = .ok (ids, opened)) :
    Shows imports package opened ∧ ids = List.range' 2 package.files.length ∧
      HasTop (topNames package []) opened := by
  obtain ⟨_, entered, enters, ran⟩ := bind_ok ran
  obtain rfl := modify_ok enters
  obtain ⟨_, _, got, ran⟩ := bind_ok ran
  obtain ⟨rfl, rfl⟩ := get_ok got
  obtain ⟨_, between, functions, opens⟩ := bind_ok ran
  obtain ⟨shows, same, frames⟩ := shows_opened functions opens
  exact ⟨shows, same, hasTop_functions frames⟩

/-- The stages of a check that passes, from where files are open. -/
theorem check_stages {interface : Interface} (accepted : package.check imports = .ok interface) :
    ∃ opened order initialized table,
      opening imports package SymbolTable.initial = .ok (List.range' 2 package.files.length, opened) ∧
      initializationOrder package = .ok order ∧
      Package.checkInitializers imports package 1 (List.range' 2 package.files.length) order opened
        = .ok ((), initialized) ∧
      Package.checkBodies imports (package.files.zip (List.range' 2 package.files.length)) initialized
        = .ok ((), table) := by
  obtain ⟨table, ran⟩ := check_ok accepted
  obtain ⟨withFunctions, ids, opened, order, initialized, functions, opens, inOrder, values, bodies, _⟩ :=
    checking_stages ran
  obtain ⟨_, rfl, _⟩ := shows_opened functions opens
  exact ⟨opened, order, initialized, table,
    (bind_run rfl).trans ((bind_run rfl).trans ((bind_run functions).trans opens)), inOrder, values, bodies⟩

theorem sorted_split {front back : List Nat} {index : Nat} (sorted : Sorted package done (front ++ index :: back)) :
    Sorted package done front ∧ ∃ item, (initializers package)[index]? = some item ∧
      ∀ name ∈ FreeNames.ofExprs [] item.decl.values, ∀ needed,
        Leads (entities package) name needed → needed ∈ front ∨ needed ∈ done := by
  induction front generalizing done with
  | nil =>
      obtain ⟨_, ⟨item, found, before⟩, _⟩ := sorted
      exact ⟨trivial, item, found, fun name free needed leads => .inr (before name free needed leads)⟩
  | cons first front ih =>
      obtain ⟨new, here, others⟩ := sorted
      obtain ⟨rest, item, found, before⟩ := ih others
      refine ⟨⟨new, here, rest⟩, item, found, fun name free needed leads => ?_⟩
      simpa [or_assoc, or_left_comm] using before name free needed leads

theorem Shows.initialized {indices : List Nat} (shows : Shows imports package opened)
    (has : HasTop (topNames package []) opened) (sorted : Sorted package [] indices) (formed : FormedPackage package)
    (ran : Package.checkInitializers imports package 1 (List.range' 2 package.files.length)
      (indices.filterMap ((initializers package)[·]?)) opened = .ok ((), table)) :
    Shows imports package table ∧ HasTop (topNames package indices) table := by
  obtain ⟨gains, _⟩ := checkInitializers_ok shows.layout sorted formed.initializers ran
  refine ⟨shows.adds gains.toAdds, fun name => ?_⟩
  have before := has name
  rw [isSome_frame shows.layout.regular] at before
  rw [isSome_frame gains.regular, gains.has, before]
  simp only [topNames, List.flatMap_nil, List.append_nil, real_append, List.mem_append]

/-- The check comes to all code of a package that passes. -/
theorem visits_all {interface : Interface} (accepted : package.check imports = .ok interface)
    (inside : file ∈ package.files) {code : TopCode} (written : code.In file) :
    ∃ table, Visits imports package table code := by
  obtain ⟨opened, order, initialized, table, opens, ordered, values, bodies⟩ := check_stages accepted
  cases code with
  | values decl =>
      obtain ⟨position, found⟩ := List.getElem?_of_mem inside
      obtain ⟨index, known⟩ := initializer_of_file found written
      obtain ⟨indices, same, _, all⟩ := initializationOrder_ok ordered
      have member : ⟨position, decl⟩ ∈ order := by
        rw [same]
        exact List.mem_filterMap.mpr ⟨index, all index (List.getElem?_eq_some_iff.mp known).1, known⟩
      obtain ⟨before, later, rfl⟩ := List.append_of_mem member
      rw [checkInitializers_append] at values
      obtain ⟨_, between, came, _⟩ := bind_ok values
      exact ⟨_, .values opens ordered came⟩
  | function name literal =>
      obtain ⟨id, member⟩ := zip_files inside
      obtain ⟨before, later, same⟩ := List.append_of_mem member
      obtain ⟨earlier, others, same'⟩ := List.append_of_mem (show (name, literal) ∈ file.program.functions from written)
      rw [same, checkBodies_append] at bodies
      obtain ⟨_, between, came, rest⟩ := bind_ok bodies
      obtain ⟨_, next, here, _⟩ := bind_ok rest
      have checked := checkIn_ok here
      rw [same', checkFunctions_append] at checked
      obtain ⟨_, last, arrived, _⟩ := bind_ok checked
      exact ⟨_, .function opens ordered values same came same' arrived⟩

/-- Code is about to be checked in the scope of its file, with all names of the package declared that it leads to. -/
structure AtCode (imports : Interfaces) (package : Package) (table : SymbolTable) (position : Nat) (code : TopCode) :
    Prop where
  shows : Shows imports package table
  file : ∃ file, package.files[position]? = some file
  formed : code.Formed
  declared : ∃ done, HasTop (topNames package done) table ∧
    ∀ name ∈ code.free, ∀ needed, Leads (entities package) name needed → needed ∈ done
  passes : ∃ after, code.check imports (table.resume (2 + position)) = .ok ((), after)

theorem AtCode.looksUp {code : TopCode} (ready : AtCode imports package table position code) :
    (∃ after, code.check imports (table.resume (2 + position)) = .ok ((), after)) ∧
      kindIn? (table.resume (2 + position)) 1 = some (.package package.name) ∧
      ∀ name, name ∈ code.free ∧ IsTop package name ↔
        LooksUp (code.check imports) (table.resume (2 + position)) 1 name := by
  obtain ⟨file, found⟩ := ready.file
  obtain ⟨done, has, before⟩ := ready.declared
  obtain ⟨after, ran⟩ := ready.passes
  exact ⟨⟨after, ran⟩, ready.shows.package_resume _, ready.shows.looksUp has found ready.formed before ran⟩

/-- The check comes to values behind all declarations that these lead to. -/
theorem atValues {interface : Interface} {ids : List Nat} {before later : List Initializer} {item : Initializer}
    (formed : FormedPackage package) (accepted : package.check imports = .ok interface)
    (opens : opening imports package SymbolTable.initial = .ok (ids, opened))
    (ordered : initializationOrder package = .ok (before ++ item :: later))
    (came : Package.checkInitializers imports package 1 ids before opened = .ok ((), table)) :
    (ids[item.file]?).getD 1 = 2 + item.file ∧ AtCode imports package table item.file (.values item.decl) := by
  obtain ⟨_, _, _, _, opens', ordered', values, _⟩ := check_stages accepted
  obtain ⟨rfl, rfl⟩ := Prod.mk.inj (Except.ok.inj (opens'.symm.trans opens))
  obtain rfl := Except.ok.inj (ordered'.symm.trans ordered)
  obtain ⟨shows, _, has⟩ := opening_ok opens
  obtain ⟨indices, same, sorted, _⟩ := initializationOrder_ok ordered
  -- The order is found by indices; where it is split, these are.
  obtain ⟨front, rest, rfl, rfl, others⟩ := List.filterMap_eq_append_iff.mp same.symm
  obtain ⟨skipped, index, back, rfl, none, known, rfl⟩ := List.filterMap_eq_cons_iff.mp others
  rw [← List.append_assoc] at sorted
  obtain ⟨sortedFront, item', known', ready⟩ := sorted_split sorted
  obtain rfl := Option.some.inj (known.symm.trans known')
  have all : (front ++ skipped).filterMap ((initializers package)[·]?)
      = front.filterMap ((initializers package)[·]?) := by
    rw [List.filterMap_append, List.filterMap_eq_nil_iff.mpr none, List.append_nil]
  obtain ⟨shows, has⟩ := shows.initialized has sortedFront formed (by rwa [all])
  obtain ⟨file, found, _⟩ := file_initializers known
  have scope : ((List.range' 2 package.files.length)[item.file]?).getD 1 = 2 + item.file := by
    rw [List.getElem?_range' (List.getElem?_eq_some_iff.mp found).1]
    simp
  rw [checkInitializers_append] at values
  have goesOn := goes_on came values
  obtain ⟨_, _, resume, walked⟩ := bind_ok goesOn
  obtain rfl := modify_ok resume
  obtain ⟨_, after, checked, _⟩ := bind_ok walked
  rw [scope] at checked
  refine ⟨scope, shows, ⟨file, found⟩, formed.initializers item (List.mem_of_getElem? known),
    ⟨_, has, fun name free needed leads => ?_⟩, after, checkIn_ok checked⟩
  exact (ready name free needed leads).resolve_right List.not_mem_nil

/-- The check comes to functions behind all declarations. -/
theorem atFunction {interface : Interface} {initialized : SymbolTable} {ids : List Nat} {order : List Initializer}
    {front back : List (SourceFile × Nat)} {scope : Nat} {earlier others : List (String × FunctionLiteral)}
    {name : String} {literal : FunctionLiteral} (formed : FormedPackage package)
    (accepted : package.check imports = .ok interface)
    (opens : opening imports package SymbolTable.initial = .ok (ids, opened))
    (ordered : initializationOrder package = .ok order)
    (values : Package.checkInitializers imports package 1 ids order opened = .ok ((), initialized))
    (files : package.files.zip ids = front ++ (file, scope) :: back)
    (came : Package.checkBodies imports front initialized = .ok ((), between))
    (functions : file.program.functions = earlier ++ (name, literal) :: others)
    (arrived : Package.checkFunctions imports scope earlier between = .ok ((), table)) :
    ∃ position, scope = 2 + position ∧ AtCode imports package table position (.function name literal) := by
  obtain ⟨_, _, _, _, opens', ordered', values', bodies⟩ := check_stages accepted
  -- A check gives one outcome, so these stages are those of the check that was accepted.
  obtain ⟨rfl, rfl⟩ := Prod.mk.inj (Except.ok.inj (opens'.symm.trans opens))
  obtain rfl := Except.ok.inj (ordered'.symm.trans ordered)
  obtain ⟨_, rfl⟩ := Prod.mk.inj (Except.ok.inj (values'.symm.trans values))
  obtain ⟨shows, _, has⟩ := opening_ok opens
  obtain ⟨indices, rfl, sorted, all⟩ := initializationOrder_ok ordered
  obtain ⟨shows, has⟩ := shows.initialized has sorted formed values
  have placed : ∀ pair ∈ front ++ (file, scope) :: back,
      ∃ position, package.files[position]? = some pair.1 ∧ pair.2 = 2 + position :=
    fun pair member => mem_zip_files rfl (files ▸ member)
  have formedFunctions : ∀ pair ∈ front ++ (file, scope) :: back,
      ∀ function ∈ pair.1.program.functions, Formed.function function.2 := fun pair member =>
    formed.functions (List.of_mem_zip (files ▸ member)).1
  obtain ⟨position, found, rfl⟩ := placed (file, scope) (by simp)
  have formedHere := formedFunctions (file, 2 + position) (by simp)
  obtain ⟨adds, _⟩ := checkBodies_fit shows (fun pair member => placed pair (List.mem_append_left _ member))
    (fun pair member => formedFunctions pair (List.mem_append_left _ member)) came
  have showsFile := shows.adds (adds.widen _)
  obtain ⟨more, _⟩ := checkFunctions_fit showsFile found
    (fun function member => formedHere function (functions ▸ List.mem_append_left _ member)) arrived
  have hasTable : HasTop (topNames package indices) table := fun name => by
    rw [frame_top showsFile more, frame_top shows adds, has name]
  -- The check goes on from the files in front, and in the file from the functions in front.
  rw [files, checkBodies_append] at bodies
  have goesOn := goes_on came bodies
  obtain ⟨_, _, here, _⟩ := bind_ok goesOn
  have checked := checkIn_ok here
  rw [functions, checkFunctions_append] at checked
  have inFile := goes_on arrived checked
  obtain ⟨_, _, resume, walked⟩ := bind_ok inFile
  obtain rfl := modify_ok resume
  obtain ⟨_, after, passed, _⟩ := bind_ok walked
  exact ⟨position, rfl, showsFile.adds (more.widen _), ⟨file, found⟩, formedHere (name, literal) (functions ▸ by simp),
    ⟨indices, hasTable, fun _ _ needed leads => all needed (leads_lt leads)⟩, after, passed⟩

/-- Where the check of a package that passes comes to code, the code passes, and of the names of the package exactly
the free ones are found in its scope. -/
theorem Visits.looksUp {interface : Interface} {code : TopCode} (visits : Visits imports package table code)
    (formed : FormedPackage package) (accepted : package.check imports = .ok interface) :
    (∃ after, code.check imports table = .ok ((), after)) ∧ kindIn? table 1 = some (.package package.name) ∧
      ∀ name, name ∈ code.free ∧ IsTop package name ↔ LooksUp (code.check imports) table 1 name := by
  cases visits with
  | values opens ordered came =>
      obtain ⟨scope, ready⟩ := atValues formed accepted opens ordered came
      rw [scope]
      exact ready.looksUp
  | function opens ordered values files came functions arrived =>
      obtain ⟨position, rfl, ready⟩ :=
        atFunction formed accepted opens ordered values files came functions arrived
      exact ready.looksUp

/-- In a package that passes its checks, the check comes to every function and every declaration at the top level, and
there the names of the package that are free in the code are exactly those that it looks up and finds in the scope of
the package. -/
theorem free_names_looked_up (formed : FormedPackage package) {interface : Interface}
    (accepted : package.check imports = .ok interface) :
    (∀ file ∈ package.files, ∀ code : TopCode, code.In file → ∃ table, Visits imports package table code) ∧
      ∀ table code, Visits imports package table code →
        (∃ after, code.check imports table = .ok ((), after)) ∧ kindIn? table 1 = some (.package package.name) ∧
          ∀ name, name ∈ code.free ∧ IsTop package name ↔ LooksUp (code.check imports) table 1 name := by
  constructor
  · intro file inside code written
    exact visits_all accepted inside written
  · intro table code visits
    exact visits.looksUp formed accepted

/-- A function that is called by a variable and returns another one: it looks the latter up, not the former. -/
theorem returned_name_looked_up :
    FormedPackage Reversed.written ∧ (∃ interface, Reversed.written.check .initial = .ok interface) ∧
      ∃ literal table, Visits .initial Reversed.written table (.function "get" literal) ∧
        LooksUp (TopCode.check .initial (.function "get" literal)) table 1 "x" ∧
        ¬ LooksUp (TopCode.check .initial (.function "get" literal)) table 1 "y" := by
  have accepted : ∃ interface, Reversed.written.check .initial = .ok interface := by
    refine ⟨⟨"main", [("y", ⟨.var, some .int⟩), ("x", ⟨.var, some .int⟩),
      ("get", ⟨.function, some (.func ⟨[], [.int]⟩)⟩)]⟩, ?_⟩
    unfold Reversed.written Reversed.value Reversed.function Reversed.dependent
    cbv
  refine ⟨Reversed.formed, accepted, ?_⟩
  obtain ⟨interface, accepted⟩ := accepted
  obtain ⟨comes, finds⟩ := free_names_looked_up Reversed.formed accepted
  let literal : FunctionLiteral := ⟨⟨[], [.int], []⟩, [.return [.identifier "x" ⟨2, 25⟩] ⟨2, 18⟩], ⟨2, 1⟩⟩
  obtain ⟨table, visits⟩ := comes ⟨"second.go", "main", [], [Reversed.function, Reversed.value]⟩
    (by simp [Reversed.written]) (.function "get" literal) (List.mem_singleton.mpr rfl)
  obtain ⟨_, _, looks⟩ := finds table _ visits
  have free : TopCode.free (.function "get" literal) = ["x"] := by
    simp [TopCode.free, literal, FreeNames.ofFunction, FreeNames.ofStmts, FreeNames.ofStmt, FreeNames.ofExprs,
      FreeNames.ofExpr, FreeNames.ofName, FreeNames.parameters]
  refine ⟨literal, table, visits, (looks "x").mp ⟨by simp [free], rfl⟩, fun found => ?_⟩
  exact absurd ((looks "y").mpr found).1 (by simp [free])

end MiniGo.Lexical
