import MiniGo.Build
import MiniGo.Proofs.Package.Tables

/-!
# Checked packages

`Prepared` is what the checks of a package establish about the table that they end with: which names
the scopes have, and that the code of the package is judged there. An initializer is judged when the
declarations before it in the order of initialization are all that is initialized; a function is
judged as soon as everything it leads to is.
-/

namespace MiniGo.Lexical

open Initialization
open Syntax (Formed.valueDecl Formed.exprs Formed.function)

variable {imports : Interfaces} {package : Package} {table between after final : SymbolTable}

/-- The context of a file of a package, of whose names those that are ready count. -/
noncomputable def fileContext (table : SymbolTable) (ready : String → Prop) (file : Nat) : Context :=
  layersOf table ready false [2 + file, 1, 0]

/-- The scopes around the code of a package. -/
structure Layout (imports : Interfaces) (package : Package) (table : SymbolTable) : Prop where
  regular : Regular table
  outermost : kindIn? table 0 = some .outermost
  predeclared : ∀ name, (table.findIn? 0 name).isSome ↔ name ∈ SymbolTable.predeclared.map (·.name)
  kind : kindIn? table 1 = some (.package package.name)
  chain : table.chain 1 = [1, 0]
  files : ∀ (position : Nat) (file : SourceFile), package.files[position]? = some file →
    FileScope imports [1, 0] file (2 + position) table

theorem lt_of_kindIn? {id : Nat} {kind : BlockKind} (known : kindIn? table id = some kind) :
    id < table.scopes.size := by
  obtain ⟨scope, found, _⟩ := Option.map_eq_some_iff.mp known
  exact (Array.getElem?_eq_some_iff.mp found).1

theorem Layout.adds (layout : Layout imports package table) (adds : Adds (some 1) table after) :
    Layout imports package after where
  regular := adds.regular
  outermost := adds.toExtends.kindIn? layout.outermost
  predeclared name := by
    rw [adds.fixed 0 (lt_of_kindIn? layout.outermost) nofun, layout.predeclared]
  kind := adds.toExtends.kindIn? layout.kind
  chain := by rw [adds.toExtends.chain (lt_of_kindIn? layout.kind), layout.chain]
  files position file found := (layout.files position file found).adds layout.regular adds (by simp; omega)

/-! ## Contexts of files -/

/-- The names of a package that are ready are in a table if they are in the final one. -/
def HasReady (final table : SymbolTable) (ready : String → Prop) : Prop :=
  ∀ name, ready name → (final.findIn? 1 name).isSome → (table.findIn? 1 name).isSome

theorem view_package {ready : String → Prop} (layout : Layout imports package table)
    (adds : Adds (some 1) table final) (has : HasReady final table ready) :
    view table ready 1 = view final ready 1 := by
  funext name
  have kind := layout.kind
  have kind' := adds.toExtends.kindIn? kind
  -- A name that is ready is declared already, so the final table has no other symbol for it; any other is hidden in
  -- both tables.
  by_cases awake : ready name
  · cases found : table.findIn? 1 name with
    | some number =>
        have inside := layout.regular.numbered _ _ _ found
        have known := Array.getElem?_eq_getElem inside
        rw [view_eq_of_findIn? found known fun _ => awake,
          view_eq_of_findIn? (adds.names _ _ _ found) (adds.symbols _ _ known) fun _ => awake]
    | none =>
        rw [view_none found]
        cases later : final.findIn? 1 name with
        | none => exact (view_none later).symm
        | some number =>
            have known := has name awake (by rw [later]; rfl)
            rw [found] at known
            exact nomatch known
  · have asleep : ∀ {table : SymbolTable}, kindIn? table 1 = some (.package package.name) →
        view table ready 1 name = none := by
      intro table kind
      have hidden : (∃ name, kindIn? table 1 = some (.package name)) ∧ ¬ ready name := ⟨⟨_, kind⟩, awake⟩
      unfold view
      split
      · rfl
      · simp only [if_pos hidden]
    rw [asleep kind, asleep kind']

theorem fileContext_layers {ready : String → Prop} (layout : Layout imports package table) {position : Nat}
    {file : SourceFile} (found : package.files[position]? = some file) :
    fileContext table ready position
      = [⟨2 + position, .outer, view table ready (2 + position)⟩, ⟨1, .outer, view table ready 1⟩,
          ⟨0, .outer, view table ready 0⟩] := by
  simp only [fileContext, layersOf, isOuterIn, (layout.files position file found).kind, layout.kind,
    layout.outermost, Option.all_some, isOuter, if_true]

/-- Behind the opening of the files, the context of a file is what it is in the end. -/
theorem fileContext_eq {ready : String → Prop} (layout : Layout imports package table)
    (adds : Adds (some 1) table final) (has : HasReady final table ready) {position : Nat}
    {file : SourceFile} (found : package.files[position]? = some file) :
    fileContext table ready position = fileContext final ready position := by
  have old := (layout.files position file found).old
  have apart : some 1 ≠ some (2 + position) := by simp; omega
  rw [fileContext_layers layout found, fileContext_layers (layout.adds adds) found,
    view_package layout adds has, view_adds layout.regular adds old apart,
    view_adds layout.regular adds (lt_of_kindIn? layout.outermost) nofun]

theorem contextOf_file {ready : String → Prop} (layout : Layout imports package table) {position : Nat}
    {file : SourceFile} (found : package.files[position]? = some file)
    (current : table.current = 2 + position) : contextOf table ready = fileContext table ready position := by
  rw [contextOf, current, (layout.files position file found).chain]
  rfl

/-- The free names of code in a file are settled if those of the package are ready. -/
theorem settled_file {ready : String → Prop} (layout : Layout imports package table)
    (adds : Adds (some 1) table final) (has : HasReady final table ready) {position : Nat}
    {file : SourceFile} (found : package.files[position]? = some file)
    (current : table.current = 2 + position) {names : List String}
    (free : ∀ name ∈ names, (final.findIn? 1 name).isSome → ready name) :
    Settled final table ready names := by
  have scope := layout.files position file found
  have seen : ∀ {id : Nat} {name : String} {kind : BlockKind}, kindIn? table id = some kind →
      (∀ package, kind ≠ .package package) → id ≠ 1 → (final.findIn? id name).isSome →
      (view table ready id name).isSome := by
    intro id name kind known plain apart declared
    rw [adds.fixed id (lt_of_kindIn? known) (by simpa using Ne.symm apart)] at declared
    obtain ⟨number, here⟩ := Option.isSome_iff_exists.mp declared
    have inside := layout.regular.numbered _ _ _ here
    rw [view_eq_of_findIn? here (Array.getElem?_eq_getElem inside) fun ⟨name, isPackage⟩ => by
      rw [known] at isPackage
      exact absurd (Option.some.inj isPackage) (plain name)]
    rfl
  intro name member id around outer declared
  rw [current, scope.chain] at around
  simp only [List.mem_cons, List.not_mem_nil, or_false] at around
  rcases around with rfl | rfl | rfl
  · exact seen scope.kind nofun (by omega) declared
  · have awake := free name member declared
    obtain ⟨number, here⟩ := Option.isSome_iff_exists.mp (has name awake declared)
    have inside := layout.regular.numbered _ _ _ here
    rw [view_eq_of_findIn? here (Array.getElem?_eq_getElem inside) fun _ => awake]
    rfl
  · exact seen layout.outermost nofun (by omega) declared

/-! ## Initializers -/

theorem declareValues_ok {scope : Nat} {kind : SymbolKind} {location : Location} {names : List String}
    {types : List (Option Ty)} {outcome : Unit} (regular : Regular table) (old : scope < table.scopes.size)
    (plain : ∀ path, kind ≠ .package path) (same : types.length = names.length)
    (ran : Check.declareValues scope kind location names types table = .ok (outcome, after)) :
    Gains scope names table after := by
  induction names generalizing types table with
  | nil =>
      obtain ⟨_, rfl⟩ := pure_ok ran
      exact (Adds.refl none regular).gains old
  | cons name names ih =>
      cases types with
      | nil => exact nomatch same
      | cons type? types =>
          obtain ⟨_, between, declared, rest⟩ := bind_ok ran
          obtain ⟨gains, _⟩ := gains_declareIn regular old
            (fun path isPackage => absurd isPackage (plain path)) declared
          exact gains.trans (ih gains.regular (Nat.lt_of_lt_of_le old gains.scopes) (Nat.succ.inj same) rest)

/-- The parts of a declaration that was checked in a scope of its own. -/
theorem valueDecl_gains {scope : Nat} {decl : ValueDecl} {outcome : Unit} (regular : Regular table)
    (old : scope < table.scopes.size) (formed : Formed.exprs decl.values)
    (ran : Check.valueDecl imports scope decl table = .ok (outcome, after)) :
    (∀ type, decl.type? = some type → Inhabits type) ∧
    ∃ between, Gains scope decl.names between after ∧ ∀ ready,
      HasRead imports ready (FreeNames.ofExprs · decl.values) (Judged.exprs · · decl.values) table between := by
  obtain ⟨isConst, names, type?, values, location⟩ := decl
  obtain ⟨inhabited, checking⟩ := valueDecl_ok ran
  obtain ⟨between, types, counts, checked, same, declaring⟩ := checkValues_ok checking
  have read : ∀ ready, HasRead imports ready (FreeNames.ofExprs · values) (Judged.exprs · · values)
      table { between with counts } :=
    fun ready => (expressions_reads values formed _ _ _ regular checked).counting counts
  have continues := (read fun _ => True).continues
  refine ⟨inhabited, _, ?_, read⟩
  refine declareValues_ok continues.regular (Nat.lt_of_lt_of_le old continues.scopes) (fun path => ?_) same
    declaring
  cases isConst <;> exact nofun

/-- A table has the functions of a package and the values of some of its declarations. -/
def HasNames (package : Package) (done : List Nat) (table : SymbolTable) : Prop :=
  ∀ name ∈ real (topNames package done), (table.findIn? 1 name).isSome

/-- The initializers of a package are judged, each when those before it are all that is initialized. -/
def InitializersJudged (facts : Facts) (package : Package) : List Nat → List Nat → Prop
  | _, [] => True
  | done, index :: rest =>
      (∀ item, (initializers package)[index]? = some item →
        Judged.exprs facts (fileContext facts.table (Ready package done) item.file) item.decl.values ∧
        ∀ type, item.decl.type? = some type → Inhabits type) ∧
      InitializersJudged facts package (index :: done) rest

/-- One initializer, checked in the scope of its file. -/
theorem checkInitializer_ok {item : Initializer} {file : SourceFile} {outcome : Unit}
    (layout : Layout imports package table) (found : package.files[item.file]? = some file)
    (formed : Formed.exprs item.decl.values)
    (ran : (do
      modify (·.resume (((List.range' 2 package.files.length)[item.file]?).getD 1))
      Package.checkIn (package.filePath item.file) (Check.valueDecl imports 1 item.decl) :
        Package.Checking Unit) table = .ok (outcome, after)) :
    Gains 1 item.decl.names table after ∧ (∀ type, item.decl.type? = some type → Inhabits type) ∧
    ∀ final done, Adds (some 1) after final → HasNames package done table →
      (∀ name ∈ FreeNames.ofExprs [] item.decl.values, (final.findIn? 1 name).isSome →
        Ready package done name) →
      Judged.exprs ⟨final, imports⟩ (fileContext final (Ready package done) item.file)
        item.decl.values := by
  have inside := (List.getElem?_eq_some_iff.mp found).1
  -- The scopes of the files follow the outermost scope and that of the package.
  have id : ((List.range' 2 package.files.length)[item.file]?).getD 1 = 2 + item.file := by
    rw [List.getElem?_range' inside]
    simp
  rw [id] at ran
  obtain ⟨_, resumed, resume, checked⟩ := bind_ok ran
  obtain rfl := modify_ok resume
  have old := (layout.files _ _ found).old
  have adds := adds_resume layout.regular (2 + item.file)
  have current : (table.resume (2 + item.file)).current = 2 + item.file := current_resume old
  have layout' := layout.adds (adds.widen _)
  obtain ⟨inhabited, between, gains, read⟩ := valueDecl_gains layout'.regular
    (lt_of_kindIn? layout'.kind) formed (checkIn_ok checked)
  have continues := (read fun _ => True).continues
  refine ⟨?_, inhabited, fun final done later has free => ?_⟩
  · exact ((adds.trans continues.toAdds).gains (lt_of_kindIn? layout.kind)).trans gains
  · have toFinal : Adds (some 1) (table.resume (2 + item.file)) final :=
      (continues.toAdds.widen _).trans (gains.toAdds.trans later)
    have hasReady : HasReady final (table.resume (2 + item.file)) (Ready package done) := by
      intro name ready _
      rw [adds.fixed 1 (lt_of_kindIn? layout.kind) nofun]
      exact has name ready.mem_topNames
    rw [← fileContext_eq layout' toFinal hasReady found, ← contextOf_file layout' found current]
    exact (read _).judged final [] (gains.toExtends.trans later.toExtends) (fun _ member => nomatch member)
      (settled_file layout' toFinal hasReady found current free)

theorem namesAt_of_getElem? {index : Nat} {item : Initializer}
    (found : (initializers package)[index]? = some item) : namesAt package index = item.decl.names := by
  rw [namesAt, found]
  rfl

theorem HasNames.gains {done : List Nat} {index : Nat} {item : Initializer}
    (has : HasNames package done table) (found : (initializers package)[index]? = some item)
    (gains : Gains 1 item.decl.names table after) : HasNames package (index :: done) after := by
  intro name member
  rw [gains.has]
  simp only [topNames, List.flatMap_cons, real_append, List.mem_append,
    namesAt_of_getElem? found] at member
  rcases member with function | here | before
  · exact Or.inl (has name (by simp only [topNames, real_append, List.mem_append]; exact Or.inl function))
  · exact Or.inr here
  · exact Or.inl (has name (by simp only [topNames, real_append, List.mem_append]; exact Or.inr before))

theorem checkInitializers_ok {done indices : List Nat} {outcome : Unit}
    (layout : Layout imports package table) (sorted : Sorted package done indices)
    (formed : ∀ item ∈ initializers package, Formed.exprs item.decl.values)
    (ran : Package.checkInitializers imports package 1 (List.range' 2 package.files.length)
      (indices.filterMap ((initializers package)[·]?)) table = .ok (outcome, after)) :
    Gains 1 (indices.flatMap (namesAt package)) table after ∧
    ∀ final, Adds (some 1) after final → HasNames package done table →
      (∀ name, (final.findIn? 1 name).isSome → name ≠ blankName ∧
        ((entities package).lookup name).isSome) →
      InitializersJudged ⟨final, imports⟩ package done indices := by
  induction indices generalizing table done with
  | nil =>
      obtain ⟨_, rfl⟩ := pure_ok ran
      exact ⟨(Adds.refl none layout.regular).gains (lt_of_kindIn? layout.kind), fun _ _ _ _ => trivial⟩
  | cons index indices ih =>
      obtain ⟨_, ⟨item, known, before⟩, others⟩ := sorted
      rw [List.filterMap_cons, known] at ran
      obtain ⟨file, found, _⟩ := file_initializers known
      unfold Package.checkInitializers at ran
      rw [← bind_assoc] at ran
      obtain ⟨_, between, first, rest⟩ := bind_ok ran
      -- The first declaration is judged in its own table and the others in the one behind it, but all of them against
      -- the final one.
      have formedHere := formed item (List.mem_of_getElem? known)
      obtain ⟨gains, inhabited, judged⟩ := checkInitializer_ok layout found formedHere first
      obtain ⟨more, allJudged⟩ := ih (layout.adds gains.toAdds) others rest
      refine ⟨?_, fun final later has named => ⟨fun other known' => ?_, ?_⟩⟩
      · rw [List.flatMap_cons, namesAt_of_getElem? known]
        exact gains.trans more
      · obtain rfl := Option.some.inj (known.symm.trans known')
        refine ⟨judged final done (more.toAdds.trans later) has fun name free declared => ?_, inhabited⟩
        obtain ⟨real, isEntity⟩ := named name declared
        exact ⟨real, isEntity, before name free⟩
      · exact allJudged final later (has.gains known gains) named

/-! ## Functions -/

/-- A function in a file is judged when the names of the package that are free in it are ready. -/
def FunctionJudged (facts : Facts) (position : Nat) (literal : FunctionLiteral) : Prop :=
  ∀ ready, (∀ name ∈ FreeNames.ofFunction [] literal, (facts.table.findIn? 1 name).isSome → ready name) →
    Judged.function facts (fileContext facts.table ready position) literal

theorem checkFunctions_ok {functions : List (String × FunctionLiteral)} {position : Nat} {file : SourceFile}
    {outcome : Unit} (layout : Layout imports package table)
    (found : package.files[position]? = some file)
    (formed : ∀ function ∈ functions, Formed.function function.2)
    (inhabited : ∀ function ∈ functions, ∀ type ∈ function.2.signature.results, Inhabits type)
    (ran : Package.checkFunctions imports (2 + position) functions table = .ok (outcome, after)) :
    Adds none table after ∧ ∀ final, Adds none after final →
      ∀ function ∈ functions, FunctionJudged ⟨final, imports⟩ position function.2 := by
  induction functions generalizing table with
  | nil =>
      obtain ⟨_, rfl⟩ := pure_ok ran
      exact ⟨.refl none layout.regular, nofun⟩
  | cons function functions ih =>
      obtain ⟨name, literal⟩ := function
      obtain ⟨formedHere, formedRest⟩ := List.forall_mem_cons.mp formed
      obtain ⟨inhabitedHere, inhabitedRest⟩ := List.forall_mem_cons.mp inhabited
      obtain ⟨_, resumed, resume, walked⟩ := bind_ok ran
      obtain rfl := modify_ok resume
      obtain ⟨_, between, checked, rest⟩ := bind_ok walked
      have adds := adds_resume layout.regular (2 + position)
      have current : (table.resume (2 + position)).current = 2 + position :=
        current_resume (layout.files position file found).old
      have layout' := layout.adds (adds.widen _)
      have read : ∀ ready, HasRead imports ready (FreeNames.ofFunction · literal)
          (Judged.function · · literal) (table.resume (2 + position)) between := fun ready =>
        function_reads literal name false formedHere (fun _ => inhabitedHere) _ _ _ layout'.regular checked
      have continues := (read fun _ => True).continues
      obtain ⟨others, judged⟩ := ih (layout'.adds (continues.toAdds.widen _)) formedRest inhabitedRest rest
      refine ⟨(adds.trans continues.toAdds).trans others, fun final later => ?_⟩
      refine List.forall_mem_cons.mpr ⟨fun ready free => ?_, judged final later⟩
      have toFinal : Adds none (table.resume (2 + position)) final :=
        continues.toAdds.trans (others.trans later)
      -- Bodies declare nothing in the scope of the package, so it has its names already.
      have hasReady : HasReady final (table.resume (2 + position)) ready := by
        intro name _ declared
        rw [← toFinal.fixed 1 (lt_of_kindIn? layout'.kind) nofun]
        exact declared
      rw [← fileContext_eq layout' (toFinal.widen _) hasReady found, ← contextOf_file layout' found current]
      exact (read ready).judged final [] (others.trans later).toExtends (fun _ member => nomatch member)
        (settled_file layout' (toFinal.widen _) hasReady found current free)

theorem checkBodies_ok {pairs : List (SourceFile × Nat)} {outcome : Unit}
    (layout : Layout imports package table)
    (placed : ∀ pair ∈ pairs, ∃ position, package.files[position]? = some pair.1 ∧ pair.2 = 2 + position)
    (formed : ∀ pair ∈ pairs, ∀ function ∈ pair.1.program.functions, Formed.function function.2)
    (inhabited : ∀ pair ∈ pairs, ∀ function ∈ pair.1.program.functions,
      ∀ type ∈ function.2.signature.results, Inhabits type)
    (ran : Package.checkBodies imports pairs table = .ok (outcome, after)) :
    Adds none table after ∧ ∀ final, Adds none after final → ∀ pair ∈ pairs, ∀ position,
      pair.2 = 2 + position → ∀ function ∈ pair.1.program.functions,
        FunctionJudged ⟨final, imports⟩ position function.2 := by
  induction pairs generalizing table with
  | nil =>
      obtain ⟨_, rfl⟩ := pure_ok ran
      exact ⟨.refl none layout.regular, nofun⟩
  | cons pair pairs ih =>
      obtain ⟨file, scope⟩ := pair
      obtain ⟨⟨position, found, same⟩, placedRest⟩ := List.forall_mem_cons.mp placed
      obtain ⟨formedHere, formedRest⟩ := List.forall_mem_cons.mp formed
      obtain ⟨inhabitedHere, inhabitedRest⟩ := List.forall_mem_cons.mp inhabited
      dsimp only at same
      subst same
      obtain ⟨_, between, first, rest⟩ := bind_ok ran
      obtain ⟨adds, judged⟩ := checkFunctions_ok layout found formedHere inhabitedHere (checkIn_ok first)
      obtain ⟨others, judgedRest⟩ := ih (layout.adds (adds.widen _)) placedRest formedRest inhabitedRest rest
      refine ⟨adds.trans others, fun final later => List.forall_mem_cons.mpr ⟨?_, judgedRest final later⟩⟩
      intro place same
      obtain rfl : position = place := Nat.add_left_cancel same
      exact judged final (others.trans later)

/-! ## Packages -/

/-- The files of a package are files that the grammar has. -/
def FormedPackage (package : Package) : Prop :=
  ∀ file ∈ package.files, Syntax.Formed.program file.program

theorem FormedPackage.initializers (formed : FormedPackage package) :
    ∀ item ∈ initializers package, Formed.exprs item.decl.values := by
  intro item member
  obtain ⟨index, found⟩ := List.getElem?_of_mem member
  obtain ⟨file, inside, declared⟩ := file_initializers found
  obtain ⟨decl, written, same⟩ := List.mem_filterMap.mp declared
  have formed := (formed file (List.mem_of_getElem? inside)).2.2 decl written
  cases decl with
  | function name literal => exact nomatch same
  | values decl =>
      obtain ⟨isConst, names, type?, values, location⟩ := decl
      rw [Syntax.Formed.decl, Formed.valueDecl] at formed
      rw [← Option.some.inj same]
      exact formed.2.2.1

theorem FormedPackage.functions (formed : FormedPackage package) {file : SourceFile}
    (inside : file ∈ package.files) :
    ∀ function ∈ file.program.functions, Formed.function function.2 := by
  intro function member
  obtain ⟨decl, written, same⟩ := List.mem_filterMap.mp member
  have formed := (formed file inside).2.2 decl written
  cases decl with
  | values decl => exact nomatch same
  | function name literal =>
      obtain rfl := Option.some.inj same
      exact formed.2

/-- What the checks of a package establish about the table that they end with. -/
structure Prepared (imports : Interfaces) (package : Package) (table : SymbolTable)
    (indices : List Nat) : Prop where
  layout : Layout imports package table
  names : ∀ name, (table.findIn? 1 name).isSome ↔ name ∈ real (topNames package indices)
  distinct : Distinct package indices
  sorted : Sorted package [] indices
  order : initializationOrder package = .ok (indices.filterMap ((initializers package)[·]?))
  initializers : InitializersJudged ⟨table, imports⟩ package [] indices
  functions : ∀ (position : Nat) (file : SourceFile), package.files[position]? = some file →
    ∀ function ∈ file.program.functions, FunctionJudged ⟨table, imports⟩ position function.2

theorem regular_empty : Regular SymbolTable.empty where
  current := Nat.zero_lt_one
  outer id scope found other member := by
    obtain ⟨inside, rfl⟩ := Array.getElem?_eq_some_iff.mp found
    obtain rfl := Nat.lt_one_iff.mp inside
    exact absurd member List.not_mem_nil
  keyed id scope found entry member := by
    obtain ⟨inside, rfl⟩ := Array.getElem?_eq_some_iff.mp found
    obtain rfl := Nat.lt_one_iff.mp inside
    exact absurd member List.not_mem_nil
  imported id name number symbol path _ known := by cases known
  innermost id inside position other file at' isFile := by
    obtain rfl := Nat.lt_one_iff.mp inside
    cases position with
    | zero =>
        obtain rfl : 0 = other := by simpa [SymbolTable.chain, SymbolTable.empty] using at'
        cases isFile
    | succ position => simp [SymbolTable.chain, SymbolTable.empty] at at'

/-- Symbols with new and distinct names that are stored in the outermost scope one after another. -/
theorem gains_insertAll {symbols : List Symbol} (regular : Regular table) (old : 0 < table.scopes.size)
    (plain : ∀ symbol ∈ symbols, ∀ path, symbol.kind ≠ .package path)
    (nodup : (real (symbols.map (·.name))).Nodup)
    (fresh : ∀ name ∈ real (symbols.map (·.name)), table.findIn? 0 name = none) :
    Gains 0 (symbols.map (·.name)) table (symbols.foldl (fun table symbol => table.insert 0 symbol) table) := by
  induction symbols generalizing table with
  | nil => exact (Adds.refl none regular).gains old
  | cons symbol symbols ih =>
      have location := Location.nowhere
      rw [List.map_cons] at nodup fresh
      -- A name that is free would be declared without an error, and the declaration stores the symbol.
      have declared : Check.declareIn 0 symbol location table = .ok ((), table.insert 0 symbol) := by
        have free : (symbol.name != blankName && (table.findIn? 0 symbol.name).isSome) = false := by
          by_cases named : symbol.name = blankName
          · simp [named]
          · rw [fresh symbol.name (mem_real.mpr ⟨List.mem_cons_self, named⟩)]
            simp
        unfold Check.declareIn SymbolTable.declareIn
        rw [free]
        rfl
      obtain ⟨gains, _⟩ := gains_declareIn regular old
        (fun path isPackage => absurd isPackage (plain symbol (by simp) path)) declared
      rw [← List.singleton_append, real_append] at nodup fresh
      obtain ⟨_, nodupRest, disjoint⟩ := List.nodup_append'.mp nodup
      refine gains.trans (ih gains.regular (Nat.lt_of_lt_of_le old gains.scopes)
        (fun other member => plain other (by simp [member])) nodupRest fun name member => ?_)
      cases found : (table.insert 0 symbol).findIn? 0 name with
      | none => rfl
      | some number =>
          have known := (gains.has name).mp (by rw [found]; rfl)
          rcases known with before | here
          · rw [fresh name (List.mem_append_right _ member)] at before
            exact nomatch before
          · exact absurd member (disjoint here)

theorem gains_initial :
    Gains 0 (SymbolTable.predeclared.map (·.name)) SymbolTable.empty SymbolTable.initial := by
  refine gains_insertAll regular_empty Nat.zero_lt_one ?_ (by decide) fun _ _ => rfl
  intro symbol member path isPackage
  simp only [SymbolTable.predeclared, List.mem_cons, List.not_mem_nil, or_false] at member
  rcases member with rfl | rfl | rfl <;> cases isPackage

theorem lift_ok {α : Type} {result : Except Error α} {outcome : α}
    (ran : (liftM result : Package.Checking α) table = .ok (outcome, after)) :
    result = .ok outcome ∧ after = table := by
  cases result with
  | error error => exact nomatch ran
  | ok value =>
      obtain ⟨rfl, rfl⟩ : value = outcome ∧ table = after := Prod.mk.inj (Except.ok.inj ran)
      exact ⟨rfl, rfl⟩

/-- A table in which the scope of a package was entered. -/
theorem entered_package (name : String) :
    Regular (SymbolTable.initial.enter (.package name)) ∧
    (SymbolTable.initial.enter (.package name)).chain 1 = [1, 0] ∧
    ∀ id other, ((SymbolTable.initial.enter (.package name)).findIn? id other).isSome ↔
      id = 0 ∧ other ∈ SymbolTable.predeclared.map (·.name) := by
  have initial := gains_initial
  have size : SymbolTable.initial.scopes.size = 1 := by decide
  refine ⟨initial.regular.enter _ (Or.inr ?_), rfl, fun id other => ?_⟩
  · intro id member path isFile
    obtain rfl : id = 0 := List.mem_singleton.mp member
    exact nomatch isFile
  · rw [findIn?_enter]
    by_cases outermost : id = 0
    · subst outermost
      rw [initial.has]
      have all : real (SymbolTable.predeclared.map (·.name)) = SymbolTable.predeclared.map (·.name) := by
        decide
      simp [all, SymbolTable.findIn?, SymbolTable.empty, SymbolScope.find?]
    · have beyond : SymbolTable.initial.scopes[id]? = none := by
        rw [Array.getElem?_eq_none_iff, size]
        omega
      simp [SymbolTable.findIn?, beyond, outermost]

theorem outside_package (name : String) :
    ∀ other ∈ (SymbolTable.initial.enter (.package name)).chain 1, ∀ path,
      kindIn? (SymbolTable.initial.enter (.package name)) other ≠ some (.file path) := by
  obtain ⟨_, chain, _⟩ := entered_package name
  rw [chain]
  intro other member path isFile
  simp only [List.mem_cons, List.not_mem_nil, or_false] at member
  rcases member with rfl | rfl <;> exact nomatch isFile

/-- The first stages of the checks: functions are declared and files are opened. -/
theorem opened_ok {name : String} {ids : List Nat} {outcome : Unit} (same : package.name = name)
    (declared : (package.files.forM fun file =>
      Package.checkIn file.path (Package.declareFunctions 1 file.program.functions))
        (SymbolTable.initial.enter (.package name)) = .ok (outcome, between))
    (opens : Package.openFiles imports 1 package.files between = .ok (ids, after)) :
    Gains 1 ((functionsOf package).map (·.1)) (SymbolTable.initial.enter (.package name)) after ∧
      Layout imports package after ∧ ids = List.range' 2 package.files.length ∧
      ∀ file ∈ package.files, ∀ function ∈ file.program.functions,
        ∀ type ∈ function.2.signature.results, Inhabits type := by
  subst same
  obtain ⟨regular, chain, names⟩ := entered_package package.name
  have size : (SymbolTable.initial.enter (.package package.name)).scopes.size = 2 := rfl
  have two : 1 < 2 ∧ 0 < 2 := by decide
  obtain ⟨gains, size', inhabited⟩ := declareAllFunctions_ok regular (size ▸ two.1) declared
  rw [size] at size'
  have chain' : between.chain 1 = [1, 0] := by rw [gains.toExtends.chain (size ▸ two.1), chain]
  have kind : kindIn? between 1 = some (.package package.name) := gains.toExtends.kindIn? rfl
  have outermost : kindIn? between 0 = some .outermost := gains.toExtends.kindIn? rfl
  have outside := outside_adds regular gains.toAdds (size ▸ two.1) (outside_package package.name)
  obtain ⟨opened, sameIds, scopes⟩ := openFiles_ok gains.regular (size' ▸ two.1) outside opens
  rw [size'] at sameIds scopes
  rw [chain'] at scopes
  have all := gains.trans (opened.gains (size' ▸ two.1))
  rw [List.append_nil] at all
  refine ⟨all, ?_, sameIds, inhabited⟩
  exact {
    regular := opened.regular
    outermost := opened.toExtends.kindIn? outermost
    predeclared := fun name => by
      rw [all.fixed 0 (size ▸ two.2) nofun, names]
      simp
    kind := opened.toExtends.kindIn? kind
    chain := by rw [opened.toExtends.chain (size' ▸ two.1), chain']
    files := scopes }

theorem mem_zip_files {ids : List Nat} {pair : SourceFile × Nat}
    (same : ids = List.range' 2 package.files.length) (member : pair ∈ package.files.zip ids) :
    ∃ position, package.files[position]? = some pair.1 ∧ pair.2 = 2 + position := by
  subst same
  obtain ⟨position, found⟩ := List.getElem?_of_mem member
  obtain ⟨here, there⟩ := List.getElem?_zip_eq_some.mp found
  have inside := (List.getElem?_eq_some_iff.mp here).1
  rw [List.getElem?_range' inside] at there
  refine ⟨position, here, ?_⟩
  simpa [eq_comm] using there

/-- The stages of the checks of a package, each with the table that it leads to. -/
theorem checking_stages {interface : Interface}
    (ran : package.checking imports SymbolTable.initial = .ok (interface, table)) :
    ∃ withFunctions ids withFiles order withValues,
      (package.files.forM fun file =>
        Package.checkIn file.path (Package.declareFunctions 1 file.program.functions))
          (SymbolTable.initial.enter (.package package.name)) = .ok ((), withFunctions) ∧
      Package.openFiles imports 1 package.files withFunctions = .ok (ids, withFiles) ∧
      initializationOrder package = .ok order ∧
      Package.checkInitializers imports package 1 ids order withFiles = .ok ((), withValues) ∧
      Package.checkBodies imports (package.files.zip ids) withValues = .ok ((), table) ∧
      interface = package.interfaceOf table 1 := by
  unfold Package.checking at ran
  obtain ⟨_, entered, enters, ran1⟩ := bind_ok ran
  obtain rfl := modify_ok enters
  obtain ⟨_, _, got, ran2⟩ := bind_ok ran1
  obtain ⟨rfl, rfl⟩ := get_ok got
  obtain ⟨_, withFunctions, functions, ran3⟩ := bind_ok ran2
  obtain ⟨ids, withFiles, opens, ran4⟩ := bind_ok ran3
  obtain ⟨order, _, ordered, ran5⟩ := bind_ok ran4
  obtain ⟨_, withValues, values, ran6⟩ := bind_ok ran5
  obtain ⟨_, last, bodies, ran7⟩ := bind_ok ran6
  obtain ⟨_, _, got, ends⟩ := bind_ok ran7
  obtain ⟨rfl, rfl⟩ := get_ok got
  obtain ⟨rfl, rfl⟩ := pure_ok ends
  obtain ⟨inOrder, rfl⟩ := lift_ok ordered
  exact ⟨withFunctions, ids, _, order, withValues, functions, opens, inOrder, values, bodies, rfl⟩

theorem check_ok {interface : Interface} (ran : package.check imports = .ok interface) :
    ∃ table, package.checking imports SymbolTable.initial = .ok (interface, table) := by
  unfold Package.check at ran
  cases checked : package.checking imports SymbolTable.initial with
  | error error => rw [checked] at ran; exact nomatch ran
  | ok both =>
      rw [checked] at ran
      obtain rfl := Except.ok.inj ran
      exact ⟨both.2, rfl⟩

/-- The checks of packages pass one after another, each behind the interface of the one before. -/
theorem checkAll_cons {packages : List Package} {interfaces : Interfaces}
    (passed : checkAll imports (package :: packages) = .ok interfaces) :
    ∃ interface, package.check imports = .ok interface ∧
      checkAll ((package.path, interface) :: imports) packages = .ok interfaces := by
  unfold checkAll at passed
  cases checked : package.check imports with
  | error error => rw [checked] at passed; exact nomatch passed
  | ok interface =>
      rw [checked] at passed
      exact ⟨interface, rfl, passed⟩

/-- The checks of a package establish what code of the package needs. -/
theorem checking_ok {interface : Interface} (formed : FormedPackage package)
    (ran : package.checking imports SymbolTable.initial = .ok (interface, table)) :
    ∃ indices, Prepared imports package table indices ∧ interface = package.interfaceOf table 1 := by
  obtain ⟨withFunctions, ids, withFiles, order, withValues, functions, opens, inOrder, values, bodies, same⟩ :=
    checking_stages ran
  obtain ⟨gains, layout, sameIds, inhabited⟩ := opened_ok rfl functions opens
  obtain ⟨indices, rfl, sorted, all⟩ := initializationOrder_ok inOrder
  rw [sameIds] at values
  obtain ⟨gainsValues, judgedValues⟩ := checkInitializers_ok layout sorted formed.initializers values
  have placed := fun pair member => @mem_zip_files package ids pair sameIds member
  obtain ⟨addsBodies, judgedBodies⟩ := checkBodies_ok (layout.adds gainsValues.toAdds) placed
    (fun pair member => formed.functions (List.of_mem_zip member).1)
    (fun pair member => inhabited pair.1 (List.of_mem_zip member).1) bodies
  have toLast := gainsValues.trans
    (addsBodies.gains (lt_of_kindIn? (layout.adds gainsValues.toAdds).kind))
  rw [List.append_nil] at toLast
  -- Functions and initialized declarations make up all names of the package.
  have total : Gains 1 (topNames package indices) _ table := gains.trans toLast
  have names : ∀ name, (table.findIn? 1 name).isSome ↔ name ∈ real (topNames package indices) := by
    intro name
    rw [total.has, (entered_package package.name).2.2]
    simp
  have layoutLast := layout.adds toLast.toAdds
  refine ⟨indices, ⟨layoutLast, names, ⟨total.nodup, all⟩, sorted, inOrder, ?_, ?_⟩, same⟩
  · refine judgedValues table (addsBodies.widen _) (fun name member => ?_) fun name declared => ?_
    · rw [gains.has]
      simp only [topNames, List.flatMap_nil, List.append_nil] at member
      exact Or.inr member
    · have member := (names name).mp declared
      exact ⟨(mem_real.mp member).2, lookup_of_mem_topNames member⟩
  · intro position file found function member
    have inside := (List.getElem?_eq_some_iff.mp found).1
    refine judgedBodies table (.refl none layoutLast.regular) (file, 2 + position) ?_ position rfl function
      member
    refine List.mem_of_getElem? (i := position) (List.getElem?_zip_eq_some.mpr ⟨found, ?_⟩)
    rw [sameIds, List.getElem?_range' inside]
    simp

end MiniGo.Lexical
