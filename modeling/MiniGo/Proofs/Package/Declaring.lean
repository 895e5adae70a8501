import MiniGo.Proofs.Lexical.Carries
import MiniGo.Proofs.Package.Checked

/-!
# Declaring the names of a package

All names of a package and of its files are declared in the same way, one symbol after another in one
scope (`declareEach`). This succeeds if the names are new and distinct, and the scope has the symbols
afterwards.
-/

namespace MiniGo.Lexical

open Initialization (functionsOf real mem_real real_append real_cons)

variable {imports : Interfaces} {table between after : SymbolTable} {scope : Nat}

/-! ## Symbols in frames -/

/-- The names of symbols, without the blank one. -/
def realNames (symbols : List Symbol) : List String := real (symbols.map (·.name))

theorem realNames_cons (symbol : Symbol) (symbols : List Symbol) :
    realNames (symbol :: symbols)
      = if symbol.name = blankName then realNames symbols else symbol.name :: realNames symbols := by
  unfold realNames real
  rw [List.map_cons, List.filter_cons]
  by_cases blank : symbol.name = blankName <;> simp [blank]

theorem addAll_of_not_mem {frame : Frame} {symbols : List Symbol} {name : String}
    (missing : name ∉ realNames symbols) : frame.addAll symbols name = frame name := by
  induction symbols generalizing frame with
  | nil => rfl
  | cons symbol symbols ih =>
      rw [realNames_cons] at missing
      change (frame.add symbol).addAll symbols name = frame name
      split at missing
      · rename_i blank
        rw [Frame.add_blank blank, ih missing]
      · rename_i named
        rw [List.mem_cons, not_or] at missing
        rw [ih missing.2, Frame.add_named named, if_neg missing.1]

theorem addAll_of_mem {frame : Frame} {symbols : List Symbol} (distinct : (realNames symbols).Nodup)
    {symbol : Symbol} (member : symbol ∈ symbols) (named : symbol.name ≠ blankName) :
    frame.addAll symbols symbol.name = some symbol := by
  induction symbols generalizing frame with
  | nil => exact absurd member List.not_mem_nil
  | cons first symbols ih =>
      rw [realNames_cons] at distinct
      change (frame.add first).addAll symbols symbol.name = some symbol
      rcases List.mem_cons.mp member with rfl | member
      · rw [if_neg named, List.nodup_cons] at distinct
        rw [addAll_of_not_mem distinct.1, Frame.add_named named, if_pos rfl]
      · refine ih ?_ member
        split at distinct
        · exact distinct
        · exact (List.nodup_cons.mp distinct).2

theorem isSome_addAll {frame : Frame} {symbols : List Symbol} {name : String} :
    (frame.addAll symbols name).isSome ↔ (frame name).isSome ∨ name ∈ realNames symbols := by
  induction symbols generalizing frame with
  | nil => exact (or_iff_left List.not_mem_nil).symm
  | cons symbol symbols ih =>
      change ((frame.add symbol).addAll symbols name).isSome ↔ _
      rw [ih, realNames_cons]
      by_cases blank : symbol.name = blankName
      · rw [Frame.add_blank blank, if_pos blank]
      · rw [Frame.add_named blank, if_neg blank, List.mem_cons]
        by_cases same : name = symbol.name <;> simp [same]

/-! ## Declaring symbols -/

/-- Declares symbols in a scope, each at its place. -/
def declareEach (scope : Nat) : List (Symbol × Location) → Check Unit
  | [] => pure ()
  | (symbol, location) :: rest => do
      Check.declareIn scope symbol location
      declareEach scope rest

theorem declareEach_append (scope : Nat) (first second : List (Symbol × Location)) :
    declareEach scope (first ++ second) = declareEach scope first >>= fun _ => declareEach scope second := by
  induction first with
  | nil => exact (pure_bind _ _).symm
  | cons entry first ih =>
      rw [List.cons_append, declareEach, declareEach, bind_assoc, ih]

/-- Symbols that a scope can have: a package only in the scope of a file. -/
def Placed (table : SymbolTable) (scope : Nat) (symbols : List Symbol) : Prop :=
  ∀ symbol ∈ symbols, ∀ path, symbol.kind = .package path → ∃ file, kindIn? table scope = some (.file file)

theorem placed_of_values {symbols : List Symbol} (values : ∀ symbol ∈ symbols, meaningOf symbol.kind = .value) :
    Placed table scope symbols := by
  intro symbol member path isPackage
  have value := values symbol member
  rw [isPackage] at value
  exact nomatch value

/-- Symbols were declared in a scope: their names are new and distinct, and nothing else has changed. -/
structure Declared (scope : Nat) (symbols : List Symbol) (table after : SymbolTable) : Prop where
  adds : Adds (some scope) table after
  current : after.current = table.current
  size : after.scopes.size = table.scopes.size
  frame : frame after scope = (frame table scope).addAll symbols
  distinct : (realNames symbols).Nodup
  fresh : ∀ name ∈ realNames symbols, Lexical.frame table scope name = none

theorem declareEach_ok {entries : List (Symbol × Location)} {outcome : Unit} (regular : Regular table)
    (old : scope < table.scopes.size) (placed : Placed table scope (entries.map (·.1)))
    (ran : declareEach scope entries table = .ok (outcome, after)) :
    Declared scope (entries.map (·.1)) table after := by
  induction entries generalizing table with
  | nil =>
      obtain ⟨_, rfl⟩ := pure_ok ran
      exact ⟨.refl _ regular, rfl, rfl, rfl, List.nodup_nil, fun name member => absurd member List.not_mem_nil⟩
  -- A name that is free behind the first declaration was free before it and is not the first name.
  | cons entry entries ih =>
      obtain ⟨symbol, location⟩ := entry
      obtain ⟨_, between, declared, rest⟩ := bind_ok ran
      obtain ⟨gains, rfl⟩ := gains_declareIn regular old (placed symbol List.mem_cons_self) declared
      have size : (table.insert scope symbol).scopes.size = table.scopes.size := size_insert scope symbol
      have later := ih gains.regular (by rw [size]; exact old) (fun other member path isPackage => by
        obtain ⟨file, isFile⟩ := placed other (List.mem_cons_of_mem _ member) path isPackage
        exact ⟨file, gains.toExtends.kindIn? isFile⟩) rest
      have inserted := @frame_insert table regular scope symbol old
      have free : symbol.name ≠ blankName → Lexical.frame table scope symbol.name = none := by
        intro named
        rw [Lexical.frame, gains.fresh symbol.name (mem_real.mpr ⟨List.mem_cons_self, named⟩)]
        rfl
      have apart : symbol.name ≠ blankName → symbol.name ∉ realNames (entries.map (·.1)) := by
        intro named member
        have known := later.fresh _ member
        rw [inserted, Frame.add_named named, if_pos rfl] at known
        exact absurd known (Option.some_ne_none _)
      refine ⟨gains.toAdds.trans later.adds, later.current, later.size.trans size, ?_, ?_, fun name member => ?_⟩
      · rw [later.frame, inserted]
        rfl
      · rw [List.map_cons, realNames_cons]
        split
        · exact later.distinct
        · rename_i named
          exact List.nodup_cons.mpr ⟨apart named, later.distinct⟩
      · rw [List.map_cons, realNames_cons] at member
        have rest : name ∈ realNames (entries.map (·.1)) → Lexical.frame table scope name = none := by
          intro member
          have known := later.fresh _ member
          rw [inserted] at known
          by_cases blank : symbol.name = blankName
          · rwa [Frame.add_blank blank] at known
          · have different : name ≠ symbol.name := fun same => apart blank (same ▸ member)
            rwa [Frame.add_named blank, if_neg different] at known
        split at member
        · exact rest member
        · rename_i named
          rcases List.mem_cons.mp member with rfl | member
          · exact free named
          · exact rest member

/-- New and distinct names can be declared. -/
theorem declareEach_run {entries : List (Symbol × Location)} (regular : Regular table)
    (old : scope < table.scopes.size) (placed : Placed table scope (entries.map (·.1)))
    (distinct : (realNames (entries.map (·.1))).Nodup)
    (fresh : ∀ name ∈ realNames (entries.map (·.1)), frame table scope name = none) :
    ∃ after, declareEach scope entries table = .ok ((), after) := by
  induction entries generalizing table with
  | nil => exact ⟨table, rfl⟩
  | cons entry entries ih =>
      obtain ⟨symbol, location⟩ := entry
      rw [List.map_cons, realNames_cons] at distinct fresh
      -- A blank name is never taken, and any other is among those that are free.
      have new : symbol.name = blankName ∨ table.findIn? scope symbol.name = none := by
        by_cases blank : symbol.name = blankName
        · exact Or.inl blank
        · rw [if_neg blank] at fresh
          have none := isSome_frame regular scope symbol.name
          rw [fresh _ List.mem_cons_self] at none
          exact Or.inr (Option.isNone_iff_eq_none.mp (by simpa using none.symm))
      have declared := declareIn_run location new
      obtain ⟨gains, _⟩ := gains_declareIn regular old (placed symbol List.mem_cons_self) declared
      have size : (table.insert scope symbol).scopes.size = table.scopes.size := size_insert scope symbol
      obtain ⟨after, ran⟩ := @ih (table.insert scope symbol) gains.regular (by rw [size]; exact old)
        (fun other member path isPackage => by
          obtain ⟨file, isFile⟩ := placed other (List.mem_cons_of_mem _ member) path isPackage
          exact ⟨file, gains.toExtends.kindIn? isFile⟩)
        (by split at distinct; exacts [distinct, (List.nodup_cons.mp distinct).2])
        (fun name member => by
          rw [frame_insert regular old]
          by_cases blank : symbol.name = blankName
          · rw [if_pos blank] at fresh
            rw [Frame.add_blank blank, fresh name member]
          · rw [if_neg blank] at fresh distinct
            have different : name ≠ symbol.name := fun same => (List.nodup_cons.mp distinct).1 (same ▸ member)
            rw [Frame.add_named blank, if_neg different]
            exact fresh name (List.mem_cons_of_mem _ member))
      exact ⟨after, (bind_run declared).trans ran⟩

theorem checkIn_iff {α : Type} {path : String} {check : Check α} {outcome : α} :
    Package.checkIn path check table = .ok (outcome, after) ↔ check table = .ok (outcome, after) := by
  refine ⟨checkIn_ok, fun ran => ?_⟩
  rw [Package.checkIn, ran]
  rfl

/-! ## Functions -/

/-- The types in the signature of a function are types. -/
def Typed (literal : FunctionLiteral) : Prop :=
  ∀ table, Check.signature literal.signature literal.location table = .ok ((), table)

def functionSymbol (function : String × FunctionLiteral) : Symbol :=
  ⟨function.1, .function, some (.func function.2.signature.type)⟩

/-- The symbol of a function of a package and the place of the function. -/
def functionEntry (function : String × FunctionLiteral) : Symbol × Location :=
  (functionSymbol function, function.2.location)

theorem typed_of_signature {literal : FunctionLiteral} {outcome : Unit}
    (ran : Check.signature literal.signature literal.location table = .ok (outcome, after)) : Typed literal := by
  intro other
  unfold Check.signature at ran ⊢
  cases params : Check.types literal.location (literal.signature.params.map (·.type)) with
  | error error => rw [params] at ran; exact nomatch ran
  | ok _ =>
      cases results : Check.types literal.location literal.signature.results with
      | error error => rw [params, results] at ran; exact nomatch ran
      | ok _ => rfl

theorem declareFunctions_iff {functions : List (String × FunctionLiteral)} :
    Package.declareFunctions scope functions table = .ok ((), after) ↔
      (∀ function ∈ functions, Typed function.2) ∧
        declareEach scope (functions.map functionEntry) table = .ok ((), after) := by
  induction functions generalizing table with
  | nil => exact (and_iff_right nofun).symm
  | cons function functions ih =>
      obtain ⟨name, literal⟩ := function
      rw [List.forall_mem_cons]
      constructor
      · intro ran
        obtain ⟨_, _, signed, walked⟩ := bind_ok ran
        obtain ⟨rfl, _⟩ := signature_ok signed
        obtain ⟨_, between, declared, rest⟩ := bind_ok walked
        obtain ⟨typed, others⟩ := ih.mp rest
        exact ⟨⟨typed_of_signature signed, typed⟩, (bind_run declared).trans others⟩
      · rintro ⟨⟨typed, others⟩, ran⟩
        obtain ⟨_, between, declared, rest⟩ := bind_ok ran
        refine (bind_run (typed table)).trans ((bind_run declared).trans ?_)
        exact ih.mpr ⟨others, rest⟩

theorem declareAllFunctions_iff {files : List SourceFile} :
    (files.forM fun file =>
      Package.checkIn file.path (Package.declareFunctions scope file.program.functions)) table = .ok ((), after) ↔
      (∀ function ∈ files.flatMap (·.program.functions), Typed function.2) ∧
        declareEach scope ((files.flatMap (·.program.functions)).map functionEntry) table = .ok ((), after) := by
  induction files generalizing table with
  | nil =>
      refine ⟨fun ran => ⟨fun _ member => absurd member List.not_mem_nil, ?_⟩, fun ⟨_, ran⟩ => ?_⟩
      · obtain ⟨_, rfl⟩ := pure_ok ran
        rfl
      · obtain ⟨_, rfl⟩ := pure_ok ran
        rfl
  | cons file files ih =>
      rw [List.flatMap_cons, List.forall_mem_append, List.map_append, declareEach_append]
      constructor
      · intro ran
        obtain ⟨_, between, first, rest⟩ := bind_ok ran
        obtain ⟨typed, declared⟩ := declareFunctions_iff.mp (checkIn_iff.mp first)
        obtain ⟨others, ran⟩ := ih.mp rest
        exact ⟨⟨typed, others⟩, (bind_run declared).trans ran⟩
      · rintro ⟨⟨typed, others⟩, ran⟩
        obtain ⟨_, between, declared, rest⟩ := bind_ok ran
        refine (bind_run (checkIn_iff.mpr (declareFunctions_iff.mpr ⟨typed, declared⟩))).trans ?_
        exact ih.mpr ⟨others, rest⟩

/-! ## Files -/

def importSymbol (imports : Interfaces) (found : Import) : Symbol :=
  ⟨importName imports found, .package found.path, none⟩

/-- The symbol of an import of a file and the place of the import. -/
def importEntry (imports : Interfaces) (found : Import) : Symbol × Location :=
  (importSymbol imports found, found.location)

def importFrame (imports : Interfaces) (list : List Import) : Frame :=
  Frame.empty.addAll (list.map (importSymbol imports))

/-- The imports of a file are known packages under distinct names. -/
structure ImportsFit (imports : Interfaces) (list : List Import) : Prop where
  known : ∀ found ∈ list, (imports.lookup found.path).isSome
  distinct : (realNames (list.map (importSymbol imports))).Nodup

theorem declareImports_eq {list : List Import} (known : ∀ found ∈ list, (imports.lookup found.path).isSome) :
    Package.declareImports imports list table
      = declareEach table.current (list.map (importEntry imports)) table := by
  induction list generalizing table with
  | nil => rfl
  | cons found list ih =>
      obtain ⟨interface, here⟩ := Option.isSome_iff_exists.mp (known found List.mem_cons_self)
      have symbol : (⟨found.alias?.getD interface.name, .package found.path, none⟩ : Symbol)
          = importSymbol imports found := by
        rw [importSymbol, importName, here]
        rfl
      unfold Package.declareImports
      rw [here, List.map_cons, importEntry, declareEach]
      dsimp only
      rw [symbol]
      cases declared : Check.declareIn table.current (importSymbol imports found) found.location table with
      | error error =>
          have failed : Check.declare (importSymbol imports found) found.location table = .error error := declared
          simp [bind, StateT.bind, declared, failed, Except.bind]
      | ok both =>
          have same : Check.declare (importSymbol imports found) found.location table = .ok both := declared
          have current : both.2.current = table.current := by
            unfold Check.declareIn SymbolTable.declareIn at declared
            split at declared
            · cases declared
            · rw [← Except.ok.inj declared]
              rfl
          rw [bind_run declared, bind_run same, ih fun other member => known other (List.mem_cons_of_mem _ member),
            current]

theorem placed_imports {list : List Import} {path : String} (isFile : kindIn? table scope = some (.file path)) :
    Placed table scope ((list.map (importEntry imports)).map (·.1)) :=
  fun _ _ _ _ => ⟨path, isFile⟩

/-- Behind its imports, the scope of a file has their symbols. -/
theorem filled_file {path : String} {list : List Import} {outcome : Unit} (regular : Regular table)
    (old : scope < table.scopes.size)
    (outside : ∀ other ∈ table.chain scope, ∀ path, kindIn? table other ≠ some (.file path))
    (known : ∀ found ∈ list, (imports.lookup found.path).isSome)
    (ran : Package.declareImports imports list ((table.resume scope).enter (.file path)) = .ok (outcome, after)) :
    Adds none table after ∧ after.scopes.size = table.scopes.size + 1 ∧
      frame after table.scopes.size = importFrame imports list := by
  have entered := entered_file regular old outside path
  rw [declareImports_eq known, entered.current] at ran
  have inside : table.scopes.size < ((table.resume scope).enter (.file path)).scopes.size := by
    rw [entered.size]
    exact Nat.lt_succ_self _
  have declared := declareEach_ok entered.adds.regular inside (placed_imports entered.isFile) ran
  refine ⟨entered.adds.then declared.adds fun id less same => ?_, declared.size.trans entered.size, ?_⟩
  · exact absurd (Option.some.inj same) (Nat.ne_of_gt less)
  · rw [declared.frame, entered.frame, importFrame, List.map_map]
    rfl

/-- The scopes of files have the symbols of their imports. -/
theorem openFiles_frames {files : List SourceFile} {ids : List Nat} (regular : Regular table)
    (old : scope < table.scopes.size)
    (outside : ∀ other ∈ table.chain scope, ∀ path, kindIn? table other ≠ some (.file path))
    (known : ∀ file ∈ files, ∀ found ∈ file.program.imports, (imports.lookup found.path).isSome)
    (ran : Package.openFiles imports scope files table = .ok (ids, after)) :
    ∀ (position : Nat) (file : SourceFile), files[position]? = some file →
      frame after (table.scopes.size + position) = importFrame imports file.program.imports := by
  induction files generalizing table ids with
  | nil => exact fun _ _ found => nomatch found
  | cons file files ih =>
      obtain ⟨knownHere, knownRest⟩ := List.forall_mem_cons.mp known
      obtain ⟨_, entered, opens, ran⟩ := bind_ok ran
      obtain rfl := modify_ok opens
      obtain ⟨_, _, got, ran⟩ := bind_ok ran
      obtain ⟨rfl, rfl⟩ := get_ok got
      obtain ⟨_, filled, declares, ran⟩ := bind_ok ran
      obtain ⟨others, _, rest, ends⟩ := bind_ok ran
      obtain ⟨_, rfl⟩ := pure_ok ends
      obtain ⟨adds, size, has⟩ := filled_file regular old outside knownHere (checkIn_ok declares)
      have old' := Nat.lt_of_lt_of_le old adds.scopes
      have outside' := outside_adds regular adds old outside
      intro position other found
      cases position with
      | zero =>
          obtain rfl : file = other := Option.some.inj found
          obtain ⟨later, _⟩ := openFiles_ok adds.regular old' outside' rest
          rw [Nat.add_zero, frame_adds adds.regular later (by omega) nofun, has]
      | succ position =>
          have frames := ih adds.regular old' outside' knownRest rest position other found
          rw [size] at frames
          rw [← frames]
          congr 1
          omega

/-- Files with imports that fit can be opened. -/
theorem openFiles_run {files : List SourceFile} (regular : Regular table) (old : scope < table.scopes.size)
    (outside : ∀ other ∈ table.chain scope, ∀ path, kindIn? table other ≠ some (.file path))
    (fit : ∀ file ∈ files, ImportsFit imports file.program.imports) :
    ∃ ids after, Package.openFiles imports scope files table = .ok (ids, after) := by
  induction files generalizing table with
  | nil => exact ⟨[], table, rfl⟩
  | cons file files ih =>
      obtain ⟨here, rest⟩ := List.forall_mem_cons.mp fit
      have entered := entered_file regular old outside file.path
      have inside : table.scopes.size < ((table.resume scope).enter (.file file.path)).scopes.size := by
        rw [entered.size]
        exact Nat.lt_succ_self _
      have symbols : (file.program.imports.map (importEntry imports)).map (·.1)
          = file.program.imports.map (importSymbol imports) := by
        rw [List.map_map]
        rfl
      obtain ⟨filled, declared⟩ := declareEach_run entered.adds.regular inside (placed_imports entered.isFile)
        (symbols ▸ here.distinct) fun name _ => by rw [entered.frame]; rfl
      have ran : Package.declareImports imports file.program.imports
          ((table.resume scope).enter (.file file.path)) = .ok ((), filled) := by
        rw [declareImports_eq here.known, entered.current]
        exact declared
      obtain ⟨adds, _, _⟩ := filled_file regular old outside here.known ran
      obtain ⟨ids, after, opened⟩ := ih adds.regular (Nat.lt_of_lt_of_le old adds.scopes)
        (outside_adds regular adds old outside) rest
      refine ⟨((table.resume scope).enter (.file file.path)).current :: ids, after, ?_⟩
      unfold Package.openFiles
      refine (bind_run rfl).trans ((bind_run rfl).trans ((bind_run (checkIn_iff.mpr ran)).trans ?_))
      exact bind_run opened

end MiniGo.Lexical
