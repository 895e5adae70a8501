import MiniGo.Package.Check
import MiniGo.Proofs.Lexical.Frames
import MiniGo.Proofs.Package.Names

/-!
# The tables of checked packages

What the checks of a package declare: the names of its top level in one scope, and the imports of each
file in a scope of the file. The stages of the checks are taken apart one after another.
-/

namespace MiniGo.Lexical

open Initialization (functionsOf namesAt topNames real mem_real real_append)

variable {imports : Interfaces} {table between after : SymbolTable}

theorem checkIn_ok {α : Type} {path : String} {check : Check α} {outcome : α}
    (ran : Package.checkIn path check table = .ok (outcome, after)) :
    check table = .ok (outcome, after) := by
  unfold Package.checkIn inFile at ran
  cases checked : check table with
  | error error => rw [checked] at ran; exact nomatch ran
  | ok both =>
      rw [checked] at ran
      exact congrArg Except.ok (Except.ok.inj ran)

/-! ## Names of one scope -/

/-- From one table to another a scope gets some names, each of which it did not have. -/
structure Gains (id : Nat) (gained : List String) (before after : SymbolTable) : Prop
    extends Adds (some id) before after where
  nodup : (real gained).Nodup
  fresh : ∀ name ∈ real gained, before.findIn? id name = none
  has : ∀ name, (after.findIn? id name).isSome ↔ (before.findIn? id name).isSome ∨ name ∈ real gained

theorem Gains.trans {id : Nat} {names others : List String} (one : Gains id names table between)
    (two : Gains id others between after) : Gains id (names ++ others) table after where
  toAdds := one.toAdds.trans two.toAdds
  nodup := by
    rw [real_append]
    refine List.Nodup.append one.nodup two.nodup fun name first second => ?_
    have known := (one.has name).mpr (Or.inr first)
    rw [two.fresh name second] at known
    exact nomatch known
  fresh name member := by
    rw [real_append] at member
    rcases List.mem_append.mp member with first | second
    · exact one.fresh name first
    · have unknown := two.fresh name second
      cases found : table.findIn? id name with
      | none => rfl
      | some number =>
          rw [one.names id name number found] at unknown
          exact nomatch unknown
  has name := by
    rw [two.has, one.has, real_append, List.mem_append, or_assoc]

theorem Adds.gains {id : Nat} (adds : Adds none table after) (old : id < table.scopes.size) :
    Gains id [] table after where
  toAdds := adds.widen _
  nodup := List.nodup_nil
  fresh _ member := absurd member List.not_mem_nil
  has name := by
    rw [adds.fixed id old nofun name]
    simp [real]

theorem gains_declareIn {id : Nat} {symbol : Symbol} {location : Location} {outcome : Unit}
    (regular : Regular table) (old : id < table.scopes.size)
    (placed : ∀ path, symbol.kind = .package path → ∃ file, kindIn? table id = some (.file file))
    (ran : Check.declareIn id symbol location table = .ok (outcome, after)) :
    Gains id [symbol.name] table after ∧ after = table.insert id symbol := by
  unfold Check.declareIn at ran
  cases declared : table.declareIn id symbol location with
  | error error => rw [declared] at ran; exact nomatch ran
  | ok both =>
      obtain ⟨number, last⟩ := both
      rw [declared] at ran
      obtain rfl : last = after := congrArg Prod.snd (Except.ok.inj ran)
      obtain ⟨continues, rfl, new⟩ := continues_declareIn regular old placed declared
      refine ⟨⟨continues.toAdds, ?_, fun name member => ?_, fun name => ?_⟩, rfl⟩
      · exact (List.nodup_singleton _).filter _
      · obtain ⟨same, named⟩ := mem_real.mp member
        obtain rfl := List.mem_singleton.mp same
        exact new named
      · rw [mem_real, List.mem_singleton]
        by_cases named : symbol.name = blankName
        · rw [findIn?_insert_blank named]
          refine ⟨Or.inl, fun either => either.resolve_right fun both => both.2 (both.1.trans named)⟩
        · rw [findIn?_insert old named]
          by_cases same : name = symbol.name
          · simp [same, named]
          · simp [same]

/-! ## Functions -/

theorem declareFunctions_ok {scope : Nat} {functions : List (String × FunctionLiteral)} {outcome : Unit}
    (regular : Regular table) (old : scope < table.scopes.size)
    (ran : Package.declareFunctions scope functions table = .ok (outcome, after)) :
    Gains scope (functions.map (·.1)) table after ∧ after.scopes.size = table.scopes.size ∧
      ∀ function ∈ functions, ∀ type ∈ function.2.signature.results, Inhabits type := by
  induction functions generalizing table with
  | nil =>
      obtain ⟨_, rfl⟩ := pure_ok ran
      exact ⟨(Adds.refl none regular).gains old, rfl, nofun⟩
  | cons function functions ih =>
      obtain ⟨name, literal⟩ := function
      obtain ⟨_, _, signed, walked⟩ := bind_ok ran
      obtain ⟨rfl, inhabited⟩ := signature_ok signed
      obtain ⟨_, between, declared, rest⟩ := bind_ok walked
      obtain ⟨gains, inserted⟩ := gains_declareIn regular old
        (fun _ isPackage => by cases isPackage) declared
      obtain ⟨others, same, inhabited'⟩ := ih gains.regular (Nat.lt_of_lt_of_le old gains.scopes) rest
      refine ⟨gains.trans others, by rw [same, inserted, size_insert], ?_⟩
      exact List.forall_mem_cons.mpr ⟨inhabited, inhabited'⟩

theorem declareAllFunctions_ok {scope : Nat} {files : List SourceFile} {outcome : Unit}
    (regular : Regular table) (old : scope < table.scopes.size)
    (ran : (files.forM fun file =>
      Package.checkIn file.path (Package.declareFunctions scope file.program.functions)) table
        = .ok (outcome, after)) :
    Gains scope ((files.flatMap (·.program.functions)).map (·.1)) table after ∧
      after.scopes.size = table.scopes.size ∧
      ∀ file ∈ files, ∀ function ∈ file.program.functions,
        ∀ type ∈ function.2.signature.results, Inhabits type := by
  induction files generalizing table with
  | nil =>
      obtain ⟨_, rfl⟩ := pure_ok ran
      exact ⟨(Adds.refl none regular).gains old, rfl, nofun⟩
  | cons file files ih =>
      obtain ⟨_, between, first, rest⟩ := bind_ok ran
      obtain ⟨gains, same, inhabited⟩ := declareFunctions_ok regular old (checkIn_ok first)
      obtain ⟨others, same', inhabited'⟩ := ih gains.regular (Nat.lt_of_lt_of_le old gains.scopes) rest
      rw [List.flatMap_cons, List.map_append]
      exact ⟨gains.trans others, same'.trans same, List.forall_mem_cons.mpr ⟨inhabited, inhabited'⟩⟩

/-! ## Files -/

def importName (imports : Interfaces) (found : Import) : String :=
  found.alias?.getD (((imports.lookup found.path).map (·.name)).getD "")

/-- The names of a scope of a file come from its imports. -/
def Imported (imports : Interfaces) (list : List Import) (id : Nat) (table : SymbolTable) : Prop :=
  ∀ name number symbol, table.findIn? id name = some number → table.symbols[number]? = some symbol →
    ∃ found ∈ list, importName imports found = name ∧ symbol.kind = .package found.path

theorem Imported.insert {earlier : List Import} {id : Nat} (imported : Imported imports earlier id table)
    (regular : Regular table) (old : id < table.scopes.size) (found : Import) :
    Imported imports (earlier ++ [found]) id
      (table.insert id ⟨importName imports found, .package found.path, none⟩) := by
  intro name number symbol has known
  rcases findIn?_insert_cases old has with ⟨_, rfl⟩ | before
  · rw [SymbolTable.symbols_insert] at known
    obtain rfl := Option.some.inj (Array.getElem?_push_size.symm.trans known)
    refine ⟨found, by simp, ?_, rfl⟩
    -- Another name, or the blank one, would have had the new number before.
    by_contra different
    by_cases named : importName imports found = blankName
    · rw [findIn?_insert_blank named] at has
      exact absurd (regular.numbered _ _ _ has) (Nat.lt_irrefl _)
    · rw [findIn?_insert old named, if_neg fun both => different both.2.symm] at has
      exact absurd (regular.numbered _ _ _ has) (Nat.lt_irrefl _)
  · have inside := regular.numbered _ _ _ before
    rw [SymbolTable.symbols_insert, Array.getElem?_push_lt inside] at known
    obtain ⟨source, member, same, kind⟩ := imported name number symbol before
      ((Array.getElem?_eq_getElem inside).trans known)
    exact ⟨source, by simp [member], same, kind⟩

theorem declareImports_ok {list earlier : List Import} {outcome : Unit} {path : String}
    (regular : Regular table) (isFile : kindIn? table table.current = some (.file path))
    (imported : Imported imports earlier table.current table)
    (ran : Package.declareImports imports list table = .ok (outcome, after)) :
    Gains table.current (list.map (importName imports)) table after ∧
      after.scopes.size = table.scopes.size ∧ Imported imports (earlier ++ list) table.current after ∧
      ∀ found ∈ list, (imports.lookup found.path).isSome := by
  induction list generalizing table earlier with
  | nil =>
      obtain ⟨_, rfl⟩ := pure_ok ran
      exact ⟨(Adds.refl none regular).gains regular.current, rfl, by simpa using imported, nofun⟩
  | cons found list ih =>
      unfold Package.declareImports at ran
      cases known : imports.lookup found.path with
      | none =>
          rw [known] at ran
          exact nomatch ran
      | some interface =>
          rw [known] at ran
          obtain ⟨_, between, declared, rest⟩ := bind_ok ran
          -- An alias replaces the name that the package calls itself.
          have name : found.alias?.getD interface.name = importName imports found := by
            rw [importName, known]
            rfl
          rw [name] at declared
          obtain ⟨gains, inserted⟩ := gains_declareIn regular regular.current
            (fun _ _ => ⟨path, isFile⟩) declared
          dsimp only at gains
          have current : between.current = table.current := by rw [inserted]; rfl
          have isFile' : kindIn? between between.current = some (.file path) := by
            rw [current]
            exact gains.toExtends.kindIn? isFile
          have imported' : Imported imports (earlier ++ [found]) between.current between := by
            rw [current, inserted]
            exact imported.insert regular regular.current found
          obtain ⟨others, same, all, loaded⟩ := ih gains.regular isFile' imported' rest
          rw [current] at others all
          refine ⟨gains.trans others, by rw [same, inserted, size_insert], by simpa using all, ?_⟩
          exact List.forall_mem_cons.mpr ⟨by rw [known]; rfl, loaded⟩

/-- The scope of a file with its imports. -/
structure FileScope (imports : Interfaces) (outer : List Nat) (file : SourceFile) (id : Nat)
    (table : SymbolTable) : Prop where
  old : id < table.scopes.size
  kind : kindIn? table id = some (.file file.path)
  chain : table.chain id = id :: outer
  nodup : (real (file.program.imports.map (importName imports))).Nodup
  has : ∀ name, (table.findIn? id name).isSome ↔
    name ∈ real (file.program.imports.map (importName imports))
  imported : Imported imports file.program.imports id table
  loaded : ∀ found ∈ file.program.imports, (imports.lookup found.path).isSome

theorem FileScope.adds {outer : List Nat} {file : SourceFile} {id : Nat} {top : Option Nat}
    (scope : FileScope imports outer file id table) (regular : Regular table)
    (adds : Adds top table after) (apart : top ≠ some id) : FileScope imports outer file id after where
  old := Nat.lt_of_lt_of_le scope.old adds.scopes
  kind := adds.toExtends.kindIn? scope.kind
  chain := by rw [adds.toExtends.chain scope.old, scope.chain]
  nodup := scope.nodup
  has name := by rw [adds.fixed id scope.old apart, scope.has]
  imported name number symbol has known := by
    rw [adds.fixed id scope.old apart] at has
    have inside := regular.numbered _ _ _ has
    have kept := adds.symbols number _ (Array.getElem?_eq_getElem inside)
    refine scope.imported name number symbol has ?_
    rw [Array.getElem?_eq_getElem inside, ← kept, known]
  loaded := scope.loaded

theorem adds_resume (regular : Regular table) (id : Nat) : Adds none table (table.resume id) := by
  unfold SymbolTable.resume
  split
  · rename_i old
    exact {
      scopes := Nat.le_refl _
      kept := fun _ scope found => ⟨scope, found, rfl, rfl⟩
      symbols := fun _ _ found => found
      names := fun _ _ _ found => found
      uses := fun _ used => used
      regular := ⟨old, regular.outer, regular.keyed, regular.imported, regular.innermost⟩
      fixed := fun _ _ _ _ => rfl }
  · exact .refl none regular

theorem current_resume {id : Nat} (old : id < table.scopes.size) : (table.resume id).current = id := by
  rw [SymbolTable.resume, if_pos old]

theorem adds_enter (kind : BlockKind) (entered : Regular (table.enter kind)) :
    Adds none table (table.enter kind) where
  toExtends := extends_enter kind
  regular := entered
  fixed id _ _ name := findIn?_enter kind id name

/-- The scope of a file was entered inside the scope of a package. -/
structure Entered (path : String) (table entered : SymbolTable) : Prop where
  adds : Adds none table entered
  current : entered.current = table.scopes.size
  size : entered.scopes.size = table.scopes.size + 1
  frame : frame entered table.scopes.size = Frame.empty
  isFile : kindIn? entered table.scopes.size = some (.file path)

theorem entered_file {scope : Nat} (regular : Regular table) (old : scope < table.scopes.size)
    (outside : ∀ other ∈ table.chain scope, ∀ path, kindIn? table other ≠ some (.file path)) (path : String) :
    Entered path table ((table.resume scope).enter (.file path)) := by
  have resumed := adds_resume regular scope
  have scopes : (table.resume scope).scopes = table.scopes := by rw [SymbolTable.resume, if_pos old]
  have outside' : ∀ other ∈ (table.resume scope).chain (table.resume scope).current, ∀ path,
      kindIn? (table.resume scope) other ≠ some (.file path) := by
    rw [current_resume old, resumed.toExtends.chain old]
    intro other member path
    rw [kindIn?, scopes]
    exact outside other member path
  have entered := resumed.regular.enter (.file path) (Or.inr outside')
  refine ⟨resumed.trans (adds_enter _ entered), ?_, ?_, ?_, ?_⟩
  · rw [← scopes]
    rfl
  · rw [← scopes]
    exact Array.size_push _
  · rw [← scopes]
    exact frame_enter_new _
  · rw [← scopes]
    exact kindIn?_enter _

theorem outside_adds {scope : Nat} {top : Option Nat} (regular : Regular table)
    (adds : Adds top table after) (old : scope < table.scopes.size)
    (outside : ∀ other ∈ table.chain scope, ∀ path, kindIn? table other ≠ some (.file path)) :
    ∀ other ∈ after.chain scope, ∀ path, kindIn? after other ≠ some (.file path) := by
  rw [adds.toExtends.chain old]
  intro other member path
  rw [kindIn?_extends adds.toExtends (regular.chain_lt old other member)]
  exact outside other member path

theorem chain_entered {scope : Nat} (old : scope < table.scopes.size) (kind : BlockKind) :
    ((table.resume scope).enter kind).chain table.scopes.size = table.scopes.size :: table.chain scope := by
  have both := @chain_enter (table.resume scope) kind
  have scopes : (table.resume scope).scopes = table.scopes := by rw [SymbolTable.resume, if_pos old]
  have chain : (table.resume scope).chain scope = table.chain scope := by
    rw [SymbolTable.chain, SymbolTable.chain, scopes]
  have current : ((table.resume scope).enter kind).current = table.scopes.size := by
    rw [← scopes]
    rfl
  rwa [current, current_resume old, chain, scopes] at both

/-- A file is opened in a new scope inside the scope of the package, which gets its imports. -/
theorem openFile_ok {scope : Nat} {file : SourceFile} {outcome : Unit} (regular : Regular table)
    (old : scope < table.scopes.size)
    (outside : ∀ other ∈ table.chain scope, ∀ path, kindIn? table other ≠ some (.file path))
    (ran : Package.declareImports imports file.program.imports
      ((table.resume scope).enter (.file file.path)) = .ok (outcome, after)) :
    Adds none table after ∧ after.scopes.size = table.scopes.size + 1 ∧
      FileScope imports (table.chain scope) file table.scopes.size after := by
  have entered := entered_file regular old outside file.path
  have inside : table.scopes.size < ((table.resume scope).enter (.file file.path)).scopes.size := by
    rw [entered.size]
    exact Nat.lt_succ_self _
  -- The new scope has no names, so all that it has in the end are the imports.
  have fresh : ∀ name, ((table.resume scope).enter (.file file.path)).findIn? table.scopes.size name
      = none := fun name => by
    rw [← Option.not_isSome_iff_eq_none, ← isSome_frame entered.adds.regular, entered.frame]
    exact Bool.false_ne_true
  obtain ⟨gains, kept, imported, loaded⟩ := @declareImports_ok imports _ _ _ [] _ _ entered.adds.regular
    (by rw [entered.current]; exact entered.isFile)
    (fun name number symbol has => by rw [entered.current, fresh name] at has; cases has) ran
  rw [entered.current] at gains imported
  rw [entered.size] at kept
  refine ⟨entered.adds.then gains.toAdds fun id less same => ?_, kept, ?_⟩
  · exact absurd (Option.some.inj same) (Nat.ne_of_gt less)
  · exact {
      old := Nat.lt_of_lt_of_le inside gains.scopes
      kind := gains.toExtends.kindIn? entered.isFile
      chain := by rw [gains.toExtends.chain inside, chain_entered old]
      nodup := gains.nodup
      has := fun name => by
        rw [gains.has, fresh name]
        simp
      imported := by simpa using imported
      loaded := loaded }

/-- Files are opened in scopes of their own, one after another. -/
theorem openFiles_ok {scope : Nat} {files : List SourceFile} {ids : List Nat} (regular : Regular table)
    (old : scope < table.scopes.size)
    (outside : ∀ other ∈ table.chain scope, ∀ path, kindIn? table other ≠ some (.file path))
    (ran : Package.openFiles imports scope files table = .ok (ids, after)) :
    Adds none table after ∧ ids = List.range' table.scopes.size files.length ∧
      ∀ (position : Nat) (file : SourceFile), files[position]? = some file →
        FileScope imports (table.chain scope) file (table.scopes.size + position) after := by
  induction files generalizing table ids with
  | nil =>
      obtain ⟨rfl, rfl⟩ := pure_ok ran
      exact ⟨.refl none regular, rfl, fun _ _ found => by cases found⟩
  | cons file files ih =>
      unfold Package.openFiles at ran
      obtain ⟨_, entered, opens, walked⟩ := bind_ok ran
      obtain rfl := modify_ok opens
      obtain ⟨opened, same, got, walked⟩ := bind_ok walked
      obtain ⟨rfl, rfl⟩ := get_ok got
      obtain ⟨_, filled, declares, walking⟩ := bind_ok walked
      obtain ⟨others, last, rest, ends⟩ := bind_ok walking
      obtain ⟨rfl, rfl⟩ := pure_ok ends
      have new : ((table.resume scope).enter (.file file.path)).current = table.scopes.size := by
        rw [SymbolTable.resume, if_pos old]
        rfl
      -- The next file is opened beside this one, since the scope of the package is resumed first.
      obtain ⟨before, kept, scopeOf⟩ := openFile_ok regular old outside (checkIn_ok declares)
      obtain ⟨adds, rfl, scopes⟩ := ih before.regular (Nat.lt_of_lt_of_le old before.scopes)
        (outside_adds regular before old outside) rest
      rw [kept, before.toExtends.chain old] at scopes
      refine ⟨before.trans adds, ?_, fun position other found => ?_⟩
      · rw [new, kept, List.length_cons, List.range'_succ]
      · cases position with
        | zero =>
            obtain rfl : file = other := Option.some.inj found
            exact scopeOf.adds before.regular adds fun same => by cases same
        | succ position =>
            have scope := scopes position other found
            rwa [show table.scopes.size + 1 + position = table.scopes.size + (position + 1) by omega] at scope

end MiniGo.Lexical
