import MiniGo.Proofs.Package.Fitting

/-!
# The checks of a package pass exactly if its names fit

* `fits_of_checking`: from checks that passed, the symbols that the top level has in the end fit. A
  declaration was checked when only some of the names were there, but its free names were among them.
* `checking_of_fits`: where symbols fit, the checks find an order of initialization, and every
  declaration gets the symbols that it has among them.

`Underway` is the invariant of the initializers in both directions.
-/

namespace MiniGo.Lexical

open Initialization
open Syntax (Formed.exprs Formed.function)

variable {imports : Interfaces} {package : Package} {table between after final : SymbolTable}
  {top : Frame}

/-! ## Functions and files -/

theorem frame_initial : frame SymbolTable.initial 0 = predeclaredFrame := by
  let entries := SymbolTable.predeclared.map fun symbol => (symbol, Location.nowhere)
  have ran : declareEach 0 entries SymbolTable.empty = .ok ((), SymbolTable.initial) := by rfl
  have values : ∀ symbol ∈ entries.map (·.1), meaningOf symbol.kind = .value := by
    intro symbol member
    simp only [entries, SymbolTable.predeclared, List.map_cons, List.map_nil, List.mem_cons, List.not_mem_nil,
      or_false] at member
    rcases member with rfl | rfl | rfl <;> rfl
  have declared := declareEach_ok regular_empty Nat.zero_lt_one (placed_of_values values) ran
  exact declared.frame

theorem map_fst_functionEntry (functions : List (String × FunctionLiteral)) :
    (functions.map functionEntry).map (·.1) = functions.map functionSymbol := by
  rw [List.map_map]
  rfl

theorem placed_functions {scope : Nat} (functions : List (String × FunctionLiteral)) :
    Placed table scope ((functions.map functionEntry).map (·.1)) := by
  refine placed_of_values fun symbol member => ?_
  rw [map_fst_functionEntry] at member
  obtain ⟨function, _, rfl⟩ := List.mem_map.mp member
  rfl

theorem realNames_functions (functions : List (String × FunctionLiteral)) :
    realNames (functions.map functionSymbol) = real (functions.map (·.1)) := by
  rw [realNames, List.map_map]
  rfl

/-- Behind the functions and the imports of the files, the package has the symbols of its functions. -/
theorem shows_opened {ids : List Nat}
    (functions : (package.files.forM fun file =>
      Package.checkIn file.path (Package.declareFunctions 1 file.program.functions))
        (SymbolTable.initial.enter (.package package.name)) = .ok ((), between))
    (opens : Package.openFiles imports 1 package.files between = .ok (ids, after)) :
    Shows imports package after ∧ ids = List.range' 2 package.files.length ∧
      frame after 1 = Frame.empty.addAll ((functionsOf package).map functionSymbol) := by
  obtain ⟨_, layout, same, _⟩ := opened_ok rfl functions opens
  obtain ⟨regular, _, _⟩ := entered_package package.name
  have size : (SymbolTable.initial.enter (.package package.name)).scopes.size = 2 := rfl
  have two : 0 < 2 ∧ 1 < 2 := by decide
  obtain ⟨_, each⟩ := declareAllFunctions_iff.mp functions
  have declared := declareEach_ok regular (size ▸ two.2) (placed_functions _) each
  have size' : between.scopes.size = 2 := declared.size
  have outside := outside_adds regular declared.adds (size ▸ two.2) (outside_package package.name)
  have known : ∀ file ∈ package.files, ∀ found ∈ file.program.imports, (imports.lookup found.path).isSome := by
    intro file inside
    obtain ⟨position, found⟩ := List.getElem?_of_mem inside
    exact (layout.files position file found).loaded
  obtain ⟨opened, _⟩ := openFiles_ok declared.adds.regular (size' ▸ two.2) outside opens
  have files := openFiles_frames declared.adds.regular (size' ▸ two.2) outside known opens
  rw [size'] at files
  refine ⟨⟨layout, files, ?_⟩, same, ?_⟩
  · rw [frame_adds declared.adds.regular opened (size' ▸ two.1) nofun,
      frame_adds regular declared.adds (size ▸ two.1) (by simp), ← frame_initial]
    exact frame_extends gains_initial.regular (extends_enter _) (findIn?_enter _ _)
  · have entered : frame (SymbolTable.initial.enter (.package package.name)) 1 = Frame.empty := frame_enter_new _
    rw [frame_adds declared.adds.regular opened (size' ▸ two.2) nofun, declared.frame, map_fst_functionEntry, entered]
    rfl

theorem hasTop_functions
    (frames : frame table 1 = Frame.empty.addAll ((functionsOf package).map functionSymbol)) :
    HasTop (topNames package []) table := by
  intro name
  rw [frames, isSome_addAll, realNames_functions, topNames, List.flatMap_nil, List.append_nil]
  exact or_iff_right Bool.false_ne_true

/-! ## Initializers -/

/-- Declarations that were checked fit when the top level has its final symbols. -/
theorem checkInitializers_fit {done indices : List Nat} {outcome : Unit}
    (underway : Underway imports package (frame final 1) done table) (shows : Shows imports package final)
    (plain : Plain (frame final 1)) (only : ∀ name, (frame final 1 name).isSome → name ∈ real (allNames package))
    (sorted : Sorted package done indices)
    (formed : ∀ item ∈ initializers package, Formed.exprs item.decl.values)
    (ran : Package.checkInitializers imports package 1 (List.range' 2 package.files.length)
      (indices.filterMap ((initializers package)[·]?)) table = .ok (outcome, after))
    (later : Adds (some 1) after final) :
    ∀ index ∈ indices, ∀ (item : Initializer) (file : SourceFile), (initializers package)[index]? = some item →
      package.files[item.file]? = some file → DeclarationFits imports (frame final 1) file item.decl := by
  induction indices generalizing table done with
  | nil => exact nofun
  | cons index indices ih =>
      obtain ⟨_, ⟨item, known, before⟩, others⟩ := sorted
      rw [List.filterMap_cons, known] at ran
      obtain ⟨file, found, _⟩ := file_initializers known
      have formedHere := formed item (List.mem_of_getElem? known)
      unfold Package.checkInitializers at ran
      rw [← bind_assoc] at ran
      obtain ⟨_, next, first, rest⟩ := bind_ok ran
      obtain ⟨types, between, decided, declares⟩ := (checkInitializer_iff found).mp first
      have length := length_decideTypes decided
      obtain ⟨adds, frames, distinct⟩ :=
        underway.toShows.declared (underway.toShows.decided found formedHere decided) declares
      have shows' := underway.toShows.adds adds
      obtain ⟨gains, _⟩ := checkInitializers_ok shows'.layout others formed rest
      have toFinal := gains.toAdds.trans later
      refine List.forall_mem_cons.mpr ⟨?_, ?_⟩
      -- The values passed with fewer names declared; those that they use mean the same in the end.
      · intro other file' known' found'
        obtain rfl := Option.some.inj (known.symm.trans known')
        obtain rfl := Option.some.inj (found.symm.trans found')
        have passes : Passes _ (decideTypes imports item.decl) types :=
          ⟨_, _, underway.toShows.stands found, decided⟩
        refine ⟨types, passes.alike (carries_initializer formedHere) (shows.stands found)
          (outside_alike (underway.plain underway.has) plain (underway.settled before only)), length, ?_⟩
        intro symbol member named
        refine frame_le toFinal ?_
        rw [frames]
        exact addAll_of_mem distinct member named
      · exact ih ⟨shows', underway.has.declares known length frames, fun name symbol => frame_le toFinal⟩
          others rest

/-- Declarations that fit pass their checks one after another. -/
theorem checkInitializers_run {done indices : List Nat} (underway : Underway imports package top done table)
    (plain : Plain top) (only : ∀ name, (top name).isSome → name ∈ real (allNames package))
    (sorted : Sorted package done indices)
    (formed : ∀ item ∈ initializers package, Formed.exprs item.decl.values)
    (fits : ∀ file ∈ package.files, ∀ decl ∈ file.program.valueDecls, DeclarationFits imports top file decl)
    (distinct : (real (indices.flatMap (namesAt package))).Nodup)
    (fresh : ∀ name ∈ real (indices.flatMap (namesAt package)), frame table 1 name = none) :
    ∃ after, Package.checkInitializers imports package 1 (List.range' 2 package.files.length)
        (indices.filterMap ((initializers package)[·]?)) table = .ok ((), after) ∧
      Underway imports package top (indices.reverse ++ done) after := by
  induction indices generalizing table done with
  | nil => exact ⟨table, rfl, underway⟩
  | cons index indices ih =>
      obtain ⟨_, ⟨item, known, before⟩, others⟩ := sorted
      obtain ⟨file, found, written⟩ := file_initializers known
      have formedHere := formed item (List.mem_of_getElem? known)
      obtain ⟨types, passes, length, among⟩ := fits file (List.mem_of_getElem? found) item.decl written
      rw [List.flatMap_cons, real_append, namesAt_of_getElem? known, ← realNames_declaredSymbols length] at distinct fresh
      obtain ⟨nodup, nodupRest, apart⟩ := List.nodup_append'.mp distinct
      -- The values pass already, since the declarations in front have all names that they use.
      obtain ⟨between, decided, _⟩ := passes.run (carries_initializer formedHere) (underway.toShows.stands found)
        (outside_alike plain (underway.plain underway.has) fun name free => (underway.settled before only name free).symm)
      have unchanged := underway.toShows.decided found formedHere decided
      obtain ⟨next, declares⟩ := underway.toShows.declares unchanged nodup fun name member =>
        fresh name (List.mem_append_left _ member)
      obtain ⟨adds, frames, _⟩ := underway.toShows.declared unchanged declares
      have below : ∀ name symbol, frame next 1 name = some symbol → top name = some symbol := by
        intro name symbol here
        rw [frames] at here
        rcases addAll_cases here with old | ⟨member, rfl, named⟩
        · exact underway.below name symbol old
        · exact among symbol member named
      obtain ⟨after, ran, last⟩ := ih ⟨underway.toShows.adds adds, underway.has.declares known length frames, below⟩
        others nodupRest fun name member => by
          rw [frames, addAll_of_not_mem fun here => apart here member]
          exact fresh name (List.mem_append_right _ member)
      refine ⟨after, ?_, by simpa using last⟩
      rw [List.filterMap_cons, known]
      unfold Package.checkInitializers
      rw [← bind_assoc]
      exact (bind_run ((checkInitializer_iff found).mpr ⟨types, between, decided, declares⟩)).trans ran

/-! ## Bodies -/

/-- The functions of files in their scopes pass their checks. -/
def BodiesPass (imports : Interfaces) (top : Frame) (pairs : List (SourceFile × Nat)) : Prop :=
  ∀ pair ∈ pairs, ∀ function ∈ pair.1.program.functions,
    Passes (outside imports pair.1.program.imports top) (Check.function imports function.1 false function.2) ()

theorem frame_top (shows : Shows imports package table) (adds : Adds none table after) :
    frame after 1 = frame table 1 :=
  frame_adds shows.layout.regular adds (lt_of_kindIn? shows.layout.kind) nofun

theorem checkFunctions_fit {functions : List (String × FunctionLiteral)} {position : Nat} {file : SourceFile}
    {outcome : Unit} (shows : Shows imports package table) (found : package.files[position]? = some file)
    (formed : ∀ function ∈ functions, Formed.function function.2)
    (ran : Package.checkFunctions imports (2 + position) functions table = .ok (outcome, after)) :
    Adds none table after ∧ ∀ function ∈ functions, Passes (outside imports file.program.imports (frame table 1))
      (Check.function imports function.1 false function.2) () := by
  induction functions generalizing table with
  | nil =>
      obtain ⟨_, rfl⟩ := pure_ok ran
      exact ⟨.refl none shows.layout.regular, nofun⟩
  | cons function functions ih =>
      obtain ⟨formedHere, formedRest⟩ := List.forall_mem_cons.mp formed
      obtain ⟨_, resumed, resume, walked⟩ := bind_ok ran
      obtain rfl := modify_ok resume
      obtain ⟨_, between, checked, rest⟩ := bind_ok walked
      have stands := shows.stands found
      obtain ⟨continues, _⟩ := function_carries function.2 function.1 false formedHere _ _ _ _ _ _ stands covers_nil checked
      have adds := (adds_resume shows.layout.regular _).trans continues.toAdds
      obtain ⟨others, passes⟩ := ih (shows.adds (adds.widen _)) formedRest rest
      rw [frame_top shows adds] at passes
      exact ⟨adds.trans others, List.forall_mem_cons.mpr ⟨⟨_, _, stands, checked⟩, passes⟩⟩

theorem checkFunctions_run {functions : List (String × FunctionLiteral)} {position : Nat} {file : SourceFile}
    (shows : Shows imports package table) (found : package.files[position]? = some file)
    (formed : ∀ function ∈ functions, Formed.function function.2)
    (passes : ∀ function ∈ functions, Passes (outside imports file.program.imports (frame table 1))
      (Check.function imports function.1 false function.2) ()) :
    ∃ after, Package.checkFunctions imports (2 + position) functions table = .ok ((), after) ∧
      Adds none table after := by
  induction functions generalizing table with
  | nil => exact ⟨table, rfl, .refl none shows.layout.regular⟩
  | cons function functions ih =>
      obtain ⟨formedHere, formedRest⟩ := List.forall_mem_cons.mp formed
      obtain ⟨here, rest⟩ := List.forall_mem_cons.mp passes
      obtain ⟨between, checked, continues⟩ := here.run (function_carries function.2 function.1 false formedHere)
        (shows.stands found) ⟨fun _ _ => rfl, rfl, fun _ _ _ _ => Iff.rfl⟩
      have adds := (adds_resume shows.layout.regular (2 + position)).trans continues.toAdds
      rw [← frame_top shows adds] at rest
      obtain ⟨after, ran, others⟩ := ih (shows.adds (adds.widen _)) formedRest rest
      exact ⟨after, (bind_run rfl).trans ((bind_run checked).trans ran), adds.trans others⟩

theorem checkBodies_fit {pairs : List (SourceFile × Nat)} {outcome : Unit} (shows : Shows imports package table)
    (placed : ∀ pair ∈ pairs, ∃ position, package.files[position]? = some pair.1 ∧ pair.2 = 2 + position)
    (formed : ∀ pair ∈ pairs, ∀ function ∈ pair.1.program.functions, Formed.function function.2)
    (ran : Package.checkBodies imports pairs table = .ok (outcome, after)) :
    Adds none table after ∧ BodiesPass imports (frame table 1) pairs := by
  induction pairs generalizing table with
  | nil =>
      obtain ⟨_, rfl⟩ := pure_ok ran
      exact ⟨.refl none shows.layout.regular, nofun⟩
  | cons pair pairs ih =>
      obtain ⟨file, scope⟩ := pair
      obtain ⟨⟨position, found, rfl⟩, placedRest⟩ := List.forall_mem_cons.mp placed
      obtain ⟨formedHere, formedRest⟩ := List.forall_mem_cons.mp formed
      obtain ⟨_, between, first, rest⟩ := bind_ok ran
      obtain ⟨adds, here⟩ := checkFunctions_fit shows found formedHere (checkIn_ok first)
      obtain ⟨others, passes⟩ := ih (shows.adds (adds.widen _)) placedRest formedRest rest
      rw [frame_top shows adds] at passes
      exact ⟨adds.trans others, List.forall_mem_cons.mpr ⟨here, passes⟩⟩

theorem checkBodies_run {pairs : List (SourceFile × Nat)} (shows : Shows imports package table)
    (placed : ∀ pair ∈ pairs, ∃ position, package.files[position]? = some pair.1 ∧ pair.2 = 2 + position)
    (formed : ∀ pair ∈ pairs, ∀ function ∈ pair.1.program.functions, Formed.function function.2)
    (passes : BodiesPass imports (frame table 1) pairs) :
    ∃ after, Package.checkBodies imports pairs table = .ok ((), after) ∧ Adds none table after := by
  induction pairs generalizing table with
  | nil => exact ⟨table, rfl, .refl none shows.layout.regular⟩
  | cons pair pairs ih =>
      obtain ⟨file, scope⟩ := pair
      obtain ⟨⟨position, found, rfl⟩, placedRest⟩ := List.forall_mem_cons.mp placed
      obtain ⟨formedHere, formedRest⟩ := List.forall_mem_cons.mp formed
      obtain ⟨here, rest⟩ := List.forall_mem_cons.mp passes
      obtain ⟨between, checked, adds⟩ := checkFunctions_run shows found formedHere here
      have shows' := shows.adds (adds.widen _)
      obtain ⟨after, ran, others⟩ := ih shows' placedRest formedRest (by rw [frame_top shows adds]; exact rest)
      exact ⟨after, (bind_run (checkIn_iff.mpr checked)).trans ran, adds.trans others⟩

/-! ## Packages -/

theorem initializer_of_file {position : Nat} {file : SourceFile} {decl : ValueDecl}
    (found : package.files[position]? = some file) (written : decl ∈ file.program.valueDecls) :
    ∃ index : Nat, (initializers package)[index]? = some ⟨position, decl⟩ := by
  refine List.getElem?_of_mem ?_
  unfold initializers
  exact List.mem_flatMap.mpr ⟨(file, position), List.mem_zipIdx_iff_getElem?.mpr found,
    List.mem_map.mpr ⟨decl, written, rfl⟩⟩

theorem zip_files {file : SourceFile} (inside : file ∈ package.files) :
    ∃ id, (file, id) ∈ package.files.zip (List.range' 2 package.files.length) := by
  obtain ⟨position, found⟩ := List.getElem?_of_mem inside
  have less := (List.getElem?_eq_some_iff.mp found).1
  exact ⟨2 + position, List.mem_of_getElem? (List.getElem?_zip_eq_some.mpr
    ⟨found, by rw [List.getElem?_range' less]; simp⟩)⟩

/-- A package that passes its checks fits the symbols that its top level has in the end. -/
theorem fits_of_checking {interface : Interface} (formed : FormedPackage package)
    (ran : package.checking imports SymbolTable.initial = .ok (interface, table)) :
    Fits imports package (frame table 1) ∧ Layout imports package table ∧
      interface = package.interfaceOf table 1 := by
  obtain ⟨indices, prepared, same⟩ := checking_ok formed ran
  refine ⟨?_, prepared.layout, same⟩
  -- The stages of the check: functions, files, the order of the declarations, their values, the bodies.
  obtain ⟨withFunctions, ids, withFiles, order, withValues, functions, opens, inOrder, values, bodies, _⟩ :=
    checking_stages ran
  obtain rfl := Except.ok.inj (inOrder.symm.trans prepared.order)
  obtain ⟨shows, rfl, frames⟩ := shows_opened functions opens
  obtain ⟨gains, _⟩ := checkInitializers_ok shows.layout prepared.sorted formed.initializers values
  have showsValues := shows.adds gains.toAdds
  have formedFunctions : ∀ pair ∈ package.files.zip (List.range' 2 package.files.length),
      ∀ function ∈ pair.1.program.functions, Formed.function function.2 :=
    fun pair member => formed.functions (List.of_mem_zip member).1
  obtain ⟨adds, passes⟩ := checkBodies_fit showsValues (fun _ => mem_zip_files rfl) formedFunctions bodies
  rw [← frame_top showsValues adds] at passes
  have showsLast := showsValues.adds (adds.widen _)
  have toLast := gains.toAdds.trans (adds.widen _)
  -- The names of the top level are those that are declared, whatever the order they were declared in.
  have perm := topNames_perm prepared.sorted prepared.distinct.all
  have has : HasTop (topNames package indices) table := fun name => by
    rw [isSome_frame prepared.layout.regular, prepared.names]
  have names : ∀ name, (frame table 1 name).isSome ↔ name ∈ real (allNames package) := fun name => by
    rw [has name, mem_real, mem_real, perm.mem_iff]
  have distinct : (real (allNames package)).Nodup := (perm.filter _).nodup_iff.mp prepared.distinct.names
  -- A stage passed in a table that later stages have only added to, so it passes in the last one as well.
  have declarations : ∀ file ∈ package.files, ∀ decl ∈ file.program.valueDecls,
      DeclarationFits imports (frame table 1) file decl := by
    intro file inside decl written
    obtain ⟨position, found⟩ := List.getElem?_of_mem inside
    obtain ⟨index, known⟩ := initializer_of_file found written
    exact checkInitializers_fit ⟨shows, hasTop_functions frames, fun name symbol => frame_le toLast⟩ showsLast
      (showsLast.plain has) (fun name => (names name).mp) prepared.sorted formed.initializers values
      (adds.widen _) index (prepared.distinct.all index (List.getElem?_eq_some_iff.mp known).1) _ file known found
  have bodies : ∀ file ∈ package.files, ∀ function ∈ file.program.functions,
      Passes (outside imports file.program.imports (frame table 1)) (Check.function imports function.1 false function.2) () := by
    intro file inside
    obtain ⟨id, member⟩ := zip_files inside
    exact passes _ member
  exact {
    imported := fun file inside => by
      obtain ⟨position, found⟩ := List.getElem?_of_mem inside
      have scope := prepared.layout.files position file found
      refine ⟨scope.loaded, ?_⟩
      rw [realNames, List.map_map]
      exact scope.nodup
    distinct := distinct
    grounded := by
      refine grounded_of_sorted prepared.sorted prepared.distinct (fun function member => ?_) fun decl member => ?_
      · obtain ⟨file, inside, written⟩ := List.mem_flatMap.mp member
        exact (bodies file inside function written).named
          (function_carries function.2 function.1 false (formed.functions inside function written))
      · obtain ⟨index, item, known, rfl⟩ := initializer_of_mem member
        obtain ⟨file, found, written⟩ := file_initializers known
        obtain ⟨_, passes, _⟩ := declarations file (List.mem_of_getElem? found) _ written
        exact passes.named (carries_initializer (formed.initializers item (List.mem_of_getElem? known)))
    declarations := declarations
    functions := fun file inside function written => by
      have member : function ∈ functionsOf package := List.mem_flatMap.mpr ⟨file, inside, written⟩
      refine ⟨(declareAllFunctions_iff.mp functions).1 function member, bodies file inside function written, ?_⟩
      intro named
      have nodup : (realNames ((functionsOf package).map functionSymbol)).Nodup := by
        rw [realNames_functions]
        rw [allNames, real_append] at distinct
        exact (List.nodup_append.mp distinct).1
      refine frame_le toLast ?_
      rw [frames]
      exact addAll_of_mem nodup (List.mem_map_of_mem member) named
    names := names }

theorem Fits.plain (fits : Fits imports package top) : Plain top where
  blank := by
    cases found : top blankName with
    | none => rfl
    | some symbol => exact absurd rfl (mem_real.mp ((fits.names blankName).mp (by rw [found]; rfl))).2
  values name symbol found := by
    obtain ⟨member, named⟩ := mem_real.mp ((fits.names name).mp (by rw [found]; rfl))
    rcases List.mem_append.mp member with isFunction | isValue
    · obtain ⟨function, inside, rfl⟩ := List.mem_map.mp isFunction
      obtain ⟨file, there, written⟩ := List.mem_flatMap.mp inside
      have known := (fits.functions file there function written).symbol named
      obtain rfl := Option.some.inj (known.symm.trans found)
      rfl
    · obtain ⟨decl, inside, isName⟩ := List.mem_flatMap.mp isValue
      obtain ⟨file, there, written⟩ := List.mem_flatMap.mp inside
      obtain ⟨types, _, length, among⟩ := fits.declarations file there decl written
      rw [← names_declaredSymbols length] at isName
      obtain ⟨other, declared, rfl⟩ := List.mem_map.mp isName
      obtain rfl := Option.some.inj ((among other declared named).symm.trans found)
      exact meaningOf_declaredSymbols other declared

theorem checking_of_stages {withFunctions withFiles withValues : SymbolTable} {ids : List Nat}
    {order : List Initializer}
    (functions : (package.files.forM fun file =>
      Package.checkIn file.path (Package.declareFunctions 1 file.program.functions))
        (SymbolTable.initial.enter (.package package.name)) = .ok ((), withFunctions))
    (opens : Package.openFiles imports 1 package.files withFunctions = .ok (ids, withFiles))
    (ordered : initializationOrder package = .ok order)
    (values : Package.checkInitializers imports package 1 ids order withFiles = .ok ((), withValues))
    (bodies : Package.checkBodies imports (package.files.zip ids) withValues = .ok ((), table)) :
    package.checking imports SymbolTable.initial = .ok (package.interfaceOf table 1, table) := by
  unfold Package.checking
  refine (bind_run rfl).trans ((bind_run rfl).trans ((bind_run functions).trans ((bind_run opens).trans ?_)))
  rw [ordered]
  exact (bind_run rfl).trans ((bind_run values).trans ((bind_run bodies).trans rfl))

/-- The functions of a package are declared and its files are opened where symbols fit. -/
theorem opening_of_fits (fits : Fits imports package top) :
    ∃ withFunctions ids withFiles, (package.files.forM fun file =>
        Package.checkIn file.path (Package.declareFunctions 1 file.program.functions))
          (SymbolTable.initial.enter (.package package.name)) = .ok ((), withFunctions) ∧
      Package.openFiles imports 1 package.files withFunctions = .ok (ids, withFiles) := by
  obtain ⟨regular, chain, _⟩ := entered_package package.name
  have inside : 1 < (SymbolTable.initial.enter (.package package.name)).scopes.size := by
    rw [show (SymbolTable.initial.enter (.package package.name)).scopes.size = 2 from rfl]
    decide
  have entered : frame (SymbolTable.initial.enter (.package package.name)) 1 = Frame.empty := frame_enter_new _
  have distinct := fits.distinct
  rw [allNames, real_append] at distinct
  obtain ⟨withFunctions, each⟩ := declareEach_run regular inside (placed_functions (functionsOf package))
    (by rw [map_fst_functionEntry, realNames_functions]; exact (List.nodup_append.mp distinct).1)
    fun name _ => by rw [entered]; rfl
  have functions := declareAllFunctions_iff.mpr ⟨fun function member => by
    obtain ⟨file, inside, written⟩ := List.mem_flatMap.mp member
    exact (fits.functions file inside function written).typed, each⟩
  have declared := declareEach_ok regular inside (placed_functions _) each
  obtain ⟨ids, withFiles, opens⟩ := openFiles_run declared.adds.regular (declared.size ▸ inside)
    (outside_adds regular declared.adds inside (outside_package package.name)) fits.imported
  exact ⟨withFunctions, ids, withFiles, functions, opens⟩

/-- The symbols of the functions are among those that fit. -/
theorem Fits.functions_below (fits : Fits imports package top)
    (frames : frame table 1 = Frame.empty.addAll ((functionsOf package).map functionSymbol)) :
    ∀ name symbol, frame table 1 name = some symbol → top name = some symbol := by
  intro name symbol found
  rw [frames] at found
  rcases addAll_cases found with none | ⟨member, rfl, named⟩
  · cases none
  · obtain ⟨function, inside, rfl⟩ := List.mem_map.mp member
    obtain ⟨file, there, written⟩ := List.mem_flatMap.mp inside
    exact (fits.functions file there function written).symbol named

/-- Behind all initializers the top level has the symbols that fit. -/
theorem Underway.complete {indices : List Nat} (fits : Fits imports package top)
    (sorted : Sorted package [] indices) (all : ∀ index < (initializers package).length, index ∈ indices)
    (underway : Underway imports package top (indices.reverse ++ []) table) : frame table 1 = top := by
  funext name
  cases found : frame table 1 name with
  | some symbol => exact (underway.below name symbol found).symm
  | none =>
      cases there : top name with
      | none => rfl
      | some symbol =>
          have member := (fits.names name).mp (by rw [there]; rfl)
          have late : name ∈ real (topNames package (indices.reverse ++ [])) := by
            rw [mem_real, ← (topNames_perm sorted all).mem_iff] at member
            rw [mem_real]
            simpa [topNames] using member
          have known := (underway.has name).mpr late
          rw [found] at known
          exact absurd known Bool.false_ne_true

/-- A package passes its checks where symbols of its top level fit, and gets these symbols. -/
theorem checking_of_fits (formed : FormedPackage package) (fits : Fits imports package top) :
    ∃ interface table, package.checking imports SymbolTable.initial = .ok (interface, table) ∧
      frame table 1 = top := by
  obtain ⟨withFunctions, ids, withFiles, functions, opens⟩ := opening_of_fits fits
  obtain ⟨shows, rfl, frames⟩ := shows_opened functions opens
  -- Values are checked in the order of initialization; their names are new and distinct.
  obtain ⟨order, ordered⟩ := fits.grounded.initializationOrder
  obtain ⟨indices, rfl, sorted, all⟩ := initializationOrder_ok ordered
  have nodup := ((topNames_perm sorted all).filter (· != blankName)).nodup_iff.mpr fits.distinct
  change (real (topNames package indices)).Nodup at nodup
  rw [topNames, real_append] at nodup
  obtain ⟨_, nodup, apart⟩ := List.nodup_append'.mp nodup
  have has := hasTop_functions frames
  obtain ⟨withValues, values, underway⟩ := checkInitializers_run ⟨shows, has, fits.functions_below frames⟩
    fits.plain (fun name => (fits.names name).mp) sorted formed.initializers fits.declarations nodup
    fun name member => by
      cases found : frame withFiles 1 name with
      | none => rfl
      | some symbol =>
          have early := (has name).mp (by rw [found]; rfl)
          rw [topNames, List.flatMap_nil, List.append_nil] at early
          exact absurd member (apart early)
  have same := underway.complete fits sorted all
  -- Bodies are checked last, against the symbols that the top level has in the end.
  obtain ⟨table, bodies, adds⟩ := checkBodies_run underway.toShows (fun _ => mem_zip_files rfl)
    (fun pair member => formed.functions (List.of_mem_zip member).1) fun pair member function written => by
      rw [same]
      exact (fits.functions _ (List.of_mem_zip member).1 function written).passes
  refine ⟨_, table, checking_of_stages functions opens ordered values bodies, ?_⟩
  rw [frame_top underway.toShows adds, same]

end MiniGo.Lexical
