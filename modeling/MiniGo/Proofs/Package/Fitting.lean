import MiniGo.Proofs.Package.Declaring
import MiniGo.Proofs.Package.Grounded

/-!
# Packages whose names fit

What it means that a package passes the checks, said without an order. `Fits` names the symbols that the
top level of the package has in the end; every declaration and every function passes its checks where all
of them are seen. The checks of a package pass exactly if there are such symbols, and then its interface
consists of them.
-/

namespace MiniGo.Lexical

open Initialization
open Syntax (Formed.exprs Formed.function)

variable {imports : Interfaces} {package : Package} {table between after final : SymbolTable}
  {top top' : Frame} {α : Type}

/-! ## What code of a file sees -/

def predeclaredFrame : Frame := Frame.empty.addAll SymbolTable.predeclared

/-- What code of a file sees outside of all blocks: imports, the top level of the package, and the names
that are predeclared. -/
def outside (imports : Interfaces) (list : List Import) (top : Frame) : Frame := fun name =>
  ((importFrame imports list name).or (top name)).or (predeclaredFrame name)

/-- A frame with values only. -/
structure Plain (top : Frame) : Prop where
  blank : top blankName = none
  values : ∀ name symbol, top name = some symbol → meaningOf symbol.kind = .value

theorem addAll_cases {frame : Frame} {symbols : List Symbol} {name : String} {symbol : Symbol}
    (found : frame.addAll symbols name = some symbol) :
    frame name = some symbol ∨ (symbol ∈ symbols ∧ symbol.name = name ∧ name ≠ blankName) := by
  induction symbols generalizing frame with
  | nil => exact Or.inl found
  | cons first symbols ih =>
      rcases @ih (frame.add first) found with before | ⟨member, rest⟩
      · by_cases blank : first.name = blankName
        · rw [Frame.add_blank blank] at before
          exact Or.inl before
        · rw [Frame.add_named blank] at before
          split at before
          · rename_i same
            obtain rfl := Option.some.inj before
            exact Or.inr ⟨List.mem_cons_self, same.symm, same ▸ blank⟩
          · exact Or.inl before
      · exact Or.inr ⟨List.mem_cons_of_mem _ member, rest⟩

theorem meaningOf_predeclared {name : String} {symbol : Symbol}
    (found : predeclaredFrame name = some symbol) : meaningOf symbol.kind = .value := by
  rcases addAll_cases found with none | ⟨member, _⟩
  · exact nomatch none
  · simp only [SymbolTable.predeclared, List.mem_cons, List.not_mem_nil, or_false] at member
    rcases member with rfl | rfl | rfl <;> rfl

/-- Code of a file sees the same where the top level shows the same symbols for its names. -/
theorem outside_alike {list : List Import} {names : List String} (plain : Plain top) (plain' : Plain top')
    (same : ∀ name ∈ names, top' name = top name) :
    Alike names (outside imports list top) (outside imports list top') where
  same name member := by rw [outside, outside, same name member]
  blank := by rw [outside, outside, plain.blank, plain'.blank]
  packages name symbol path isPackage := by
    have value : meaningOf symbol.kind ≠ .value := by rw [isPackage]; exact nofun
    -- Packages come from the imports of the file; the top level has values, and so have the predeclared names.
    have imported : ∀ {top : Frame}, Plain top →
        (outside imports list top name = some symbol ↔ importFrame imports list name = some symbol) := by
      intro top plain
      unfold outside
      cases importFrame imports list name with
      | some found => rfl
      | none =>
          rw [Option.none_or]
          refine ⟨fun found => absurd ?_ value, nofun⟩
          cases here : top name with
          | some other =>
              rw [here] at found
              exact plain.values name symbol (here.trans found)
          | none =>
              rw [here] at found
              exact meaningOf_predeclared found
    rw [imported plain, imported plain']

/-- A check passes where the outer scopes show some symbols. -/
def Passes (outer : Frame) (check : Check α) (outcome : α) : Prop :=
  ∃ table after, Stands table [] outer ∧ check table = .ok (outcome, after)

theorem covers_nil : Covers [] [] := fun name _ => by simp

theorem Passes.run {outer outer' : Frame} {check : Check α} {outcome : α} {named needs : List String → List String}
    (passes : Passes outer check outcome) (carries : Carries named needs check)
    (stands : Stands table [] outer') (alike : Alike (needs []) outer outer') :
    ∃ after, check table = .ok (outcome, after) ∧ Continues none table after := by
  obtain ⟨other, last, stands', ran⟩ := passes
  exact (carries _ _ _ _ _ _ stands' covers_nil ran).2.2 table outer' stands alike

theorem Passes.alike {outer outer' : Frame} {check : Check α} {outcome : α} {named needs : List String → List String}
    (passes : Passes outer check outcome) (carries : Carries named needs check)
    (stands : Stands table [] outer') (alike : Alike (needs []) outer outer') : Passes outer' check outcome := by
  obtain ⟨after, ran, _⟩ := passes.run carries stands alike
  exact ⟨table, after, stands, ran⟩

theorem Passes.named {outer : Frame} {check : Check α} {outcome : α} {named needs : List String → List String}
    (passes : Passes outer check outcome) (carries : Carries named needs check) : blankName ∉ named [] := by
  obtain ⟨_, _, stands, ran⟩ := passes
  exact (carries _ _ _ _ _ _ stands covers_nil ran).2.1

/-! ## Tables of a package -/

/-- The outer scopes around the code of a package show its imports and the predeclared names. -/
structure Shows (imports : Interfaces) (package : Package) (table : SymbolTable) : Prop where
  layout : Layout imports package table
  files : ∀ (position : Nat) (file : SourceFile), package.files[position]? = some file →
    frame table (2 + position) = importFrame imports file.program.imports
  outermost : frame table 0 = predeclaredFrame

theorem Shows.adds (shows : Shows imports package table) (adds : Adds (some 1) table after) :
    Shows imports package after where
  layout := shows.layout.adds adds
  files position file found := by
    have old := (shows.layout.files position file found).old
    rw [frame_adds shows.layout.regular adds old (by simp; omega), shows.files position file found]
  outermost := by
    rw [frame_adds shows.layout.regular adds (lt_of_kindIn? shows.layout.outermost) nofun, shows.outermost]

theorem frame_resume (id other : Nat) : frame (table.resume id) other = frame table other := by
  unfold SymbolTable.resume
  split <;> rfl

theorem Shows.stands (shows : Shows imports package table) {position : Nat} {file : SourceFile}
    (found : package.files[position]? = some file) :
    Stands (table.resume (2 + position)) [] (outside imports file.program.imports (frame table 1)) := by
  have scope := shows.layout.files position file found
  have adds := adds_resume shows.layout.regular (2 + position)
  refine ⟨adds.regular, _, rfl, fun name => ?_⟩
  rw [current_resume scope.old, adds.toExtends.chain scope.old, scope.chain]
  simp only [List.map_cons, List.map_nil, frame_resume, shows.files position file found, shows.outermost, outside,
    List.findSome?_cons, List.findSome?_nil]
  cases importFrame imports file.program.imports name with
  | some symbol => rfl
  | none =>
      cases frame table 1 name with
      | some symbol => rfl
      | none => cases predeclaredFrame name <;> rfl

/-- A table whose top level has exactly some names. -/
def HasTop (names : List String) (table : SymbolTable) : Prop :=
  ∀ name, (frame table 1 name).isSome ↔ name ∈ real names

theorem Shows.plain (shows : Shows imports package table) {names : List String} (has : HasTop names table) :
    Plain (frame table 1) where
  blank := by
    cases found : frame table 1 blankName with
    | none => rfl
    | some symbol =>
        have member := (has blankName).mp (by rw [found]; rfl)
        exact absurd rfl (mem_real.mp member).2
  values name symbol found := by
    obtain ⟨number, here, known⟩ := Option.bind_eq_some_iff.mp found
    cases kind : symbol.kind with
    | package path =>
        obtain ⟨file, isFile⟩ := shows.layout.regular.imported 1 name number symbol path here known kind
        rw [shows.layout.kind] at isFile
        exact nomatch isFile
    | _ => rfl

theorem frame_le {top : Option Nat} (adds : Adds top table after) {id : Nat} {name : String} {symbol : Symbol}
    (found : frame table id name = some symbol) : frame after id name = some symbol := by
  obtain ⟨number, here, known⟩ := Option.bind_eq_some_iff.mp found
  rw [frame, adds.names id name number here]
  exact adds.symbols number symbol known

/-! ## Packages that fit -/

def allNames (package : Package) : List String :=
  (functionsOf package).map (·.1) ++ (declarationsOf package).flatMap (·.names)

/-- The types of a declaration in a file are found where the top level has its final symbols, and the
declared names are among them. -/
def DeclarationFits (imports : Interfaces) (top : Frame) (file : SourceFile) (decl : ValueDecl) : Prop :=
  ∃ types, Passes (outside imports file.program.imports top) (decideTypes imports decl) types ∧
    types.length = decl.names.length ∧
    ∀ symbol ∈ declaredSymbols decl types, symbol.name ≠ blankName → top symbol.name = some symbol

/-- A function in a file passes its checks where the top level has its final symbols, which it is among. -/
structure FunctionFits (imports : Interfaces) (top : Frame) (file : SourceFile)
    (function : String × FunctionLiteral) : Prop where
  typed : Typed function.2
  passes : Passes (outside imports file.program.imports top) (Check.function imports function.1 false function.2) ()
  symbol : function.1 ≠ blankName → top function.1 = some (functionSymbol function)

/-- The code of a package passes all checks when its top level has these symbols. -/
structure Fits (imports : Interfaces) (package : Package) (top : Frame) : Prop where
  imported : ∀ file ∈ package.files, ImportsFit imports file.program.imports
  distinct : (real (allNames package)).Nodup
  grounded : Grounded package
  declarations : ∀ file ∈ package.files, ∀ decl ∈ file.program.valueDecls,
    DeclarationFits imports top file decl
  functions : ∀ file ∈ package.files, ∀ function ∈ file.program.functions,
    FunctionFits imports top file function
  names : ∀ name, (top name).isSome ↔ name ∈ real (allNames package)

/-! ## Names and orders -/

theorem namesAt_range (package : Package) :
    (List.range (initializers package).length).flatMap (namesAt package)
      = (declarationsOf package).flatMap (·.names) := by
  have each : (List.range (initializers package).length).map (namesAt package)
      = (initializers package).map (·.decl.names) := by
    refine List.ext_getElem (by simp) fun index here there => ?_
    rw [List.length_map, List.length_range] at here
    simp [namesAt, here]
  rw [List.flatMap_def, each, ← map_initializers, List.flatMap_map]
  rfl

theorem allNames_eq (package : Package) :
    allNames package = topNames package (List.range (initializers package).length) := by
  rw [allNames, topNames, namesAt_range]

/-- The names of a package, in the order of their initialization. -/
theorem topNames_perm {indices : List Nat} (sorted : Sorted package [] indices)
    (all : ∀ index < (initializers package).length, index ∈ indices) :
    (topNames package indices).Perm (allNames package) := by
  -- A sorted order has every declaration once at most, and none that is not there.
  have bounded : ∀ {done indices : List Nat}, Sorted package done indices →
      indices.Nodup ∧ (∀ index ∈ indices, index ∉ done) ∧
        ∀ index ∈ indices, index < (initializers package).length := by
    intro done indices sorted
    induction indices generalizing done with
    | nil => exact ⟨List.nodup_nil, nofun, nofun⟩
    | cons index rest ih =>
        obtain ⟨new, ⟨item, found, _⟩, others⟩ := sorted
        obtain ⟨nodup, apart, within⟩ := ih others
        refine ⟨List.nodup_cons.mpr ⟨fun member => apart index member List.mem_cons_self, nodup⟩, ?_, ?_⟩
        · exact List.forall_mem_cons.mpr ⟨new, fun other member inside =>
            apart other member (List.mem_cons_of_mem _ inside)⟩
        · exact List.forall_mem_cons.mpr ⟨(List.getElem?_eq_some_iff.mp found).1, within⟩
  obtain ⟨nodup, _, within⟩ := bounded sorted
  have perm : indices.Perm (List.range (initializers package).length) := by
    refine (List.perm_ext_iff_of_nodup nodup List.nodup_range).mpr fun index => ?_
    rw [List.mem_range]
    exact ⟨within index, all index⟩
  rw [allNames_eq]
  exact (perm.flatMap_right _).append_left _

/-! ## Declarations -/

theorem declareValues_each {scope : Nat} {decl : ValueDecl} {types : List (Option Ty)} :
    Check.declareValues scope (kindOf decl) decl.location decl.names types
      = declareEach scope ((declaredSymbols decl types).map fun symbol => (symbol, decl.location)) := by
  unfold declaredSymbols
  generalize decl.names = names
  induction names generalizing types with
  | nil => rfl
  | cons name names ih =>
      cases types with
      | nil => rfl
      | cons type? types =>
          rw [Check.declareValues, ih]
          rfl

theorem realNames_declaredSymbols {decl : ValueDecl} {types : List (Option Ty)}
    (same : types.length = decl.names.length) : realNames (declaredSymbols decl types) = real decl.names := by
  rw [realNames, names_declaredSymbols same]

/-- The symbols of a declaration, each with its place. -/
def declaredEntries (decl : ValueDecl) (types : List (Option Ty)) : List (Symbol × Location) :=
  (declaredSymbols decl types).map fun symbol => (symbol, decl.location)

theorem map_fst_declaredEntries (decl : ValueDecl) (types : List (Option Ty)) :
    (declaredEntries decl types).map (·.1) = declaredSymbols decl types := by
  rw [declaredEntries, List.map_map]
  exact List.map_id _

/-- A declaration is checked in the scope of its file: its types are decided, then its names are declared. -/
theorem checkInitializer_iff {item : Initializer} {file : SourceFile}
    (found : package.files[item.file]? = some file) :
    (do
      modify (·.resume (((List.range' 2 package.files.length)[item.file]?).getD 1))
      Package.checkIn (package.filePath item.file) (Check.valueDecl imports 1 item.decl) :
        Package.Checking Unit) table = .ok ((), after) ↔
    ∃ types between, decideTypes imports item.decl (table.resume (2 + item.file)) = .ok (types, between) ∧
      declareEach 1 (declaredEntries item.decl types) between = .ok ((), after) := by
  have id : ((List.range' 2 package.files.length)[item.file]?).getD 1 = 2 + item.file := by
    rw [List.getElem?_range' (List.getElem?_eq_some_iff.mp found).1]
    simp
  rw [id]
  -- Resuming the scope of the file cannot fail, so only the two parts of the declaration are left.
  refine Iff.trans (Eq.congr_left (bind_run rfl)) (checkIn_iff.trans ?_)
  rw [valueDecl_eq]
  constructor
  · intro ran
    obtain ⟨types, between, decided, declares⟩ := bind_ok ran
    exact ⟨types, between, decided, declareValues_each ▸ declares⟩
  · rintro ⟨types, between, decided, declares⟩
    refine (bind_run decided).trans ?_
    rw [declareValues_each]
    exact declares

theorem carries_initializer {decl : ValueDecl} (formed : Formed.exprs decl.values) :
    Carries (FreeNames.ofExprs · decl.values) (FreeNames.ofExprs · decl.values) (decideTypes imports decl) :=
  carries_decideTypes (expressions_carries decl.values formed)

theorem Shows.decided {item : Initializer} {file : SourceFile} {types : List (Option Ty)}
    (shows : Shows imports package table) (found : package.files[item.file]? = some file)
    (formed : Formed.exprs item.decl.values)
    (decided : decideTypes imports item.decl (table.resume (2 + item.file)) = .ok (types, between)) :
    Adds none table between :=
  have ⟨continues, _⟩ := carries_initializer formed _ _ _ _ _ _ (shows.stands found) covers_nil decided
  (adds_resume shows.layout.regular _).trans continues.toAdds

theorem Shows.declared {decl : ValueDecl} {types : List (Option Ty)} (shows : Shows imports package table)
    (adds : Adds none table between)
    (declares : declareEach 1 (declaredEntries decl types) between = .ok ((), after)) :
    Adds (some 1) table after ∧ frame after 1 = (frame table 1).addAll (declaredSymbols decl types) ∧
      (realNames (declaredSymbols decl types)).Nodup := by
  have old := lt_of_kindIn? shows.layout.kind
  have values : ∀ symbol ∈ (declaredEntries decl types).map (·.1), meaningOf symbol.kind = .value := by
    rw [map_fst_declaredEntries]
    exact meaningOf_declaredSymbols
  have declared := declareEach_ok adds.regular (Nat.lt_of_lt_of_le old adds.scopes) (placed_of_values values) declares
  rw [map_fst_declaredEntries] at declared
  refine ⟨(adds.widen _).trans declared.adds, ?_, declared.distinct⟩
  rw [declared.frame, frame_adds shows.layout.regular adds old nofun]

theorem Shows.declares {decl : ValueDecl} {types : List (Option Ty)} (shows : Shows imports package table)
    (adds : Adds none table between) (distinct : (realNames (declaredSymbols decl types)).Nodup)
    (fresh : ∀ name ∈ realNames (declaredSymbols decl types), frame table 1 name = none) :
    ∃ after, declareEach 1 (declaredEntries decl types) between = .ok ((), after) := by
  have old := lt_of_kindIn? shows.layout.kind
  rw [← map_fst_declaredEntries] at distinct fresh
  refine declareEach_run adds.regular (Nat.lt_of_lt_of_le old adds.scopes) ?_ distinct fun name member => ?_
  · rw [map_fst_declaredEntries]
    exact placed_of_values meaningOf_declaredSymbols
  · rw [frame_adds shows.layout.regular adds old nofun]
    exact fresh name member

/-- A table on the way to a top level: its files are open, and of the final symbols it has those of the
functions and of some declarations. -/
structure Underway (imports : Interfaces) (package : Package) (top : Frame) (done : List Nat)
    (table : SymbolTable) : Prop extends Shows imports package table where
  has : HasTop (topNames package done) table
  below : ∀ name symbol, frame table 1 name = some symbol → top name = some symbol

/-- The names of code in a declaration mean the same in the end as when the declaration is checked. -/
theorem Underway.settled {done : List Nat} {decl : ValueDecl} (underway : Underway imports package top done table)
    (before : ∀ name ∈ FreeNames.ofExprs [] decl.values, ∀ needed,
      Leads (entities package) name needed → needed ∈ done)
    (only : ∀ name, (top name).isSome → name ∈ real (allNames package)) :
    ∀ name ∈ FreeNames.ofExprs [] decl.values, top name = frame table 1 name := by
  intro name free
  cases here : frame table 1 name with
  | some symbol => exact underway.below name symbol here
  | none =>
      cases there : top name with
      | none => rfl
      | some symbol =>
          have member := only name (by rw [there]; rfl)
          rw [allNames_eq] at member
          have ready : Ready package done name :=
            ⟨(mem_real.mp member).2, lookup_of_mem_topNames member, before name free⟩
          have known := (underway.has name).mpr ready.mem_topNames
          rw [here] at known
          exact nomatch known

theorem HasTop.declares {done : List Nat} {index : Nat} {item : Initializer} {types : List (Option Ty)}
    (has : HasTop (topNames package done) table) (found : (initializers package)[index]? = some item)
    (same : types.length = item.decl.names.length)
    (frames : frame after 1 = (frame table 1).addAll (declaredSymbols item.decl types)) :
    HasTop (topNames package (index :: done)) after := by
  intro name
  rw [frames, isSome_addAll, has name, realNames_declaredSymbols same]
  simp only [topNames, List.flatMap_cons, real_append, List.mem_append, namesAt_of_getElem? found]
  tauto

end MiniGo.Lexical
