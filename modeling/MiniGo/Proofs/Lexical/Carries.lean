import MiniGo.Proofs.Lexical.Frames

/-!
# Checks that carry over

A check that passes also passes, with the same outcome, where the outer scopes show the same symbols for
the free names of the code.

* `Carries`: the code declares nothing around it.
* `Brings`: the code stands in a block and declares names there.

Each has two lists of names: the names that the code certainly reads, of which none is blank when the
check passes, and the names that have to be alike. Over a tree both are the free names.
-/

namespace MiniGo.Lexical

open Syntax (Formed.expr Formed.exprs Formed.optionalExpr Formed.function Formed.valueDecl Formed.ifStmt
  Formed.elseBranch Formed.caseLabel Formed.cases Formed.stmt Formed.stmts Formed.header)

variable {α β : Type} {imports : Interfaces} {table other before after last : SymbolTable}
  {blocks : List Frame} {block outer outer' : Frame} {bound names names' : List String}
  {named named' needs needs' : List String → List String}

/-- A check that passes names no blank name, and passes in the same way wherever the names that it needs
mean the same. -/
def Carries (named needs : List String → List String) (check : Check α) : Prop :=
  ∀ table blocks outer bound outcome after, Stands table blocks outer → Covers blocks bound →
    check table = .ok (outcome, after) →
    Continues none table after ∧ blankName ∉ named bound ∧
    ∀ other outer', Stands other blocks outer' → Alike (needs bound) outer outer' →
      ∃ last, check other = .ok (outcome, last) ∧ Continues none other last

/-- A check that passes in a block declares names there, and does the same wherever the names that it
needs mean the same. -/
def Brings (names : List String) (named needs : List String → List String) (check : Check α) : Prop :=
  ∀ table block blocks outer bound outcome after, Stands table (block :: blocks) outer →
    Covers (block :: blocks) bound → check table = .ok (outcome, after) →
    ∃ block', Continues (some table.current) table after ∧ Stands after (block' :: blocks) outer ∧
      Covers (block' :: blocks) (names ++ bound) ∧ blankName ∉ named bound ∧
      ∀ other outer', Stands other (block :: blocks) outer' → Alike (needs bound) outer outer' →
        ∃ last, check other = .ok (outcome, last) ∧ Continues (some other.current) other last ∧
          Stands last (block' :: blocks) outer'

/-! ## Putting checks together -/

theorem bind_run {ε : Type} {one : StateT SymbolTable (Except ε) α} {two : α → StateT SymbolTable (Except ε) β}
    {value : α} {between : SymbolTable} (ran : one table = .ok (value, between)) :
    (one >>= two) table = two value between := by
  simp [bind, StateT.bind, ran, Except.bind]

theorem Carries.weaken {check : Check α} (carries : Carries named needs check)
    (fewer : ∀ bound, ∀ name ∈ named' bound, name ∈ named bound)
    (more : ∀ bound, ∀ name ∈ needs bound, name ∈ needs' bound) : Carries named' needs' check := by
  intro table blocks outer bound outcome after stands covers ran
  obtain ⟨continues, real, passes⟩ := carries _ _ _ _ _ _ stands covers ran
  exact ⟨continues, fun blank => real (fewer _ _ blank), fun other outer' stands' alike =>
    passes other outer' stands' (alike.subset (more bound))⟩

theorem Brings.weaken {check : Check α} (brings : Brings names named needs check)
    (fewer : ∀ bound, ∀ name ∈ named' bound, name ∈ named bound)
    (more : ∀ bound, ∀ name ∈ needs bound, name ∈ needs' bound) : Brings names named' needs' check := by
  intro table block blocks outer bound outcome after stands covers ran
  obtain ⟨block', continues, stood, covered, real, passes⟩ := brings _ _ _ _ _ _ _ stands covers ran
  exact ⟨block', continues, stood, covered, fun blank => real (fewer _ _ blank),
    fun other outer' stands' alike => passes other outer' stands' (alike.subset (more bound))⟩

theorem Carries.bind {one : Check α} {two : α → Check β} (first : Carries named needs one)
    (second : ∀ value, Carries named' needs' (two value)) :
    Carries (fun bound => named bound ++ named' bound) (fun bound => needs bound ++ needs' bound)
      (one >>= two) := by
  intro table blocks outer bound outcome after stands covers ran
  obtain ⟨value, between, ran, ran'⟩ := bind_ok ran
  obtain ⟨continues, real, passes⟩ := first _ _ _ _ _ _ stands covers ran
  obtain ⟨continues', real', passes'⟩ := second value _ _ _ _ _ _ (stands.continues continues) covers ran'
  refine ⟨continues.trans continues', ?_, fun other outer' stands' alike => ?_⟩
  · exact fun blank => (List.mem_append.mp blank).elim real real'
  · obtain ⟨middle, passed, went⟩ := passes other outer' stands' (alike.subset fun _ => List.mem_append_left _)
    obtain ⟨last, passed', went'⟩ := passes' middle outer' (stands'.continues went)
      (alike.subset fun _ => List.mem_append_right _)
    exact ⟨last, (bind_run passed).trans passed', went.trans went'⟩

theorem Carries.followed {one : Check α} {two : α → Check β} (first : Carries named needs one)
    (second : ∀ value, Carries (fun _ => []) (fun _ => []) (two value)) : Carries named needs (one >>= two) :=
  (first.bind second).weaken (by simp) (by simp)

theorem Carries.seq {one : Check α} {two : Check β} (first : Carries named needs one)
    (second : Carries named' needs' two) :
    Carries (fun bound => named bound ++ named' bound) (fun bound => needs bound ++ needs' bound)
      (one >>= fun _ => two) :=
  first.bind fun _ => second

theorem Brings.bind {one : Check α} {two : α → Check β} (first : Brings names named needs one)
    (second : ∀ table value between, one table = .ok (value, between) → Brings names' named' needs' (two value)) :
    Brings (names ++ names') (fun bound => named bound ++ named' (names ++ bound))
      (fun bound => needs bound ++ needs' (names ++ bound)) (one >>= two) := by
  intro table block blocks outer bound outcome after stands covers ran
  obtain ⟨value, between, ran, ran'⟩ := bind_ok ran
  obtain ⟨_, continues, stood, covered, real, passes⟩ := first _ _ _ _ _ _ _ stands covers ran
  obtain ⟨block', continues', stood', covered', real', passes'⟩ := second _ value _ ran _ _ _ _ _ _ _ stood covered ran'
  refine ⟨block', continues.trans (continues.current ▸ continues'), stood', covered'.congr fun name => ?_, ?_,
    fun other outer' stands' alike => ?_⟩
  · simp only [List.mem_append]
    tauto
  · exact fun blank => (List.mem_append.mp blank).elim real real'
  · obtain ⟨middle, passed, went, stood⟩ :=
      passes other outer' stands' (alike.subset fun _ => List.mem_append_left _)
    obtain ⟨last, passed', went', stood'⟩ := passes' middle outer' stood
      (alike.subset fun _ => List.mem_append_right _)
    exact ⟨last, (bind_run passed).trans passed', went.trans (went.current ▸ went'), stood'⟩

theorem Brings.seq {one : Check α} {two : Check β} (first : Brings names named needs one)
    (second : Brings names' named' needs' two) :
    Brings (names ++ names') (fun bound => named bound ++ named' (names ++ bound))
      (fun bound => needs bound ++ needs' (names ++ bound)) (one >>= fun _ => two) :=
  first.bind fun _ _ _ _ => second

theorem Carries.brings {check : Check α} (carries : Carries named needs check) :
    Brings [] named needs check := by
  intro table block blocks outer bound outcome after stands covers ran
  obtain ⟨continues, real, passes⟩ := carries _ _ _ _ _ _ stands covers ran
  refine ⟨block, continues.widen _, stands.continues continues, covers, real, fun other outer' stands' alike => ?_⟩
  obtain ⟨last, passed, went⟩ := passes other outer' stands' alike
  exact ⟨last, passed, went.widen _, stands'.continues went⟩

theorem Brings.congr {check : Check α} (brings : Brings names named needs check)
    (same : ∀ name, name ≠ blankName → (name ∈ names ↔ name ∈ names')) : Brings names' named needs check := by
  intro table block blocks outer bound outcome after stands covers ran
  obtain ⟨block', continues, stood, covered, rest⟩ := brings _ _ _ _ _ _ _ stands covers ran
  refine ⟨block', continues, stood, fun name real => ?_, rest⟩
  rw [← covered name real, List.mem_append, List.mem_append, same name real]

theorem Brings.inScope {kind : BlockKind} {check : Check α} (brings : Brings names named needs check)
    (inner : isOuter kind = false) : Carries named needs (Check.inScope kind check) := by
  have apart : ∀ {table : SymbolTable}, ∀ id < table.scopes.size, some (table.enter kind).current ≠ some id :=
    fun id old same => absurd (Option.some.inj same) (Nat.ne_of_gt old)
  intro table blocks outer bound outcome after stands covers ran
  obtain ⟨inside, checked, rfl⟩ := inScope_ok ran
  obtain ⟨_, continues, _, _, real, passes⟩ := brings _ _ _ _ _ _ _ (stands.enter inner) covers.enter checked
  refine ⟨continues_exit stands.regular continues apart, real, fun other outer' stands' alike => ?_⟩
  obtain ⟨last, passed, went, _⟩ := passes _ outer' (stands'.enter inner) alike
  refine ⟨last.exit, ?_, continues_exit stands'.regular went apart⟩
  refine (bind_run rfl).trans ?_
  exact (bind_run passed).trans rfl

/-! ## Checks of counts -/

theorem carries_const {result : Except ResolutionError α} {check : Check α}
    (same : ∀ table, check table = result.map (·, table)) : Carries (fun _ => []) (fun _ => []) check := by
  intro table blocks outer bound outcome after stands covers ran
  rw [same] at ran
  cases result with
  | error error => exact nomatch ran
  | ok value =>
      obtain ⟨rfl, rfl⟩ := Prod.mk.inj (Except.ok.inj ran)
      refine ⟨.refl none stands.regular, List.not_mem_nil, fun other outer' stands' _ => ?_⟩
      exact ⟨other, same other, .refl none stands'.regular⟩

theorem carries_pure (value : α) : Carries (fun _ => []) (fun _ => []) (pure value : Check α) :=
  @carries_const _ (.ok value) _ fun _ => rfl

theorem carries_fail (error : ResolutionError) : Carries (fun _ => []) (fun _ => []) (Check.fail error : Check α) :=
  @carries_const _ (.error error) _ fun _ => rfl

theorem carries_require (holds : Bool) (error : ResolutionError) :
    Carries (fun _ => []) (fun _ => []) (Check.require holds error) := by
  unfold Check.require
  split
  · exact carries_pure ()
  · exact carries_fail error

theorem carries_count (expr : Expr) :
    Carries (fun _ => []) (FreeNames.ofExpr · expr) (Check.count imports expr) := by
  intro table blocks outer bound outcome after stands covers ran
  obtain ⟨rfl, rfl⟩ := count_ok ran
  refine ⟨continues_counts stands.regular _, List.not_mem_nil, fun other outer' stands' alike => ?_⟩
  refine ⟨other.counted expr (Check.resultCount? imports table expr), ?_, continues_counts stands'.regular _⟩
  rw [← resultCount?_alike stands stands' covers alike]
  rfl

theorem carries_single (expr : Expr) :
    Carries (fun _ => []) (FreeNames.ofExpr · expr) (Check.single imports expr) := by
  refine (carries_count expr).followed fun count? => ?_
  split
  · exact carries_fail _
  · exact carries_pure _
  · exact carries_fail _
  · exact carries_pure _

theorem carries_singles (exprs : List Expr) :
    Carries (fun _ => []) (FreeNames.ofExprs · exprs) (Check.singles imports exprs) := by
  induction exprs with
  | nil => exact (carries_pure ()).weaken nofun nofun
  | cons first rest ih =>
      refine ((carries_single first).seq ih).weaken (fun _ _ member => nomatch member) fun bound name member => ?_
      rw [FreeNames.ofExprs]
      exact member

theorem carries_valueCount (targets : Nat) (values : List Expr) (location : Location) :
    Carries (fun _ => []) (FreeNames.ofExprs · values) (Check.valueCount imports targets values location) := by
  unfold Check.valueCount
  split
  · rename_i value
    refine ((carries_count value).followed fun count? => ?_).weaken nofun (by simp [FreeNames.ofExprs])
    split
    · exact carries_require _ _
    · exact carries_pure _
  · exact ((carries_require _ _).seq (carries_singles _)).weaken nofun (by simp)

theorem carries_returnCount (body : Check.Body) (values : List Expr) (location : Location) :
    Carries (fun _ => []) (FreeNames.ofExprs · values) (Check.returnCount imports body values location) := by
  unfold Check.returnCount
  dsimp only
  split
  · split
    · exact (carries_pure _).weaken nofun nofun
    · exact (carries_require _ _).weaken nofun nofun
  · rename_i value
    refine ((carries_count value).followed fun count? => ?_).weaken nofun (by simp [FreeNames.ofExprs])
    split
    · exact carries_require _ _
    · exact carries_pure _
  · exact ((carries_singles _).seq (carries_require _ _)).weaken nofun (by simp)

/-! ## Names -/

theorem mem_ofName {name other : String} :
    other ∈ FreeNames.ofName bound name ↔ other = name ∧ name ∉ bound := by
  unfold FreeNames.ofName
  split <;> simp_all

theorem carries_resolve (name : String) (location : Location) :
    Carries (FreeNames.ofName · name) (FreeNames.ofName · name) (Check.resolve name location) := by
  intro table blocks outer bound outcome after stands covers ran
  obtain ⟨found, real, rfl⟩ := resolve_ok ran
  refine ⟨continues_used stands.regular name location, fun blank => ?_, fun other outer' stands' alike => ?_⟩
  · exact real (by simpa using (mem_ofName.mp blank).1.symm)
  · refine ⟨other.used name location, ?_, continues_used stands'.regular name location⟩
    have unblank : (name == blankName) = false := by simpa using real
    unfold Check.resolve
    rw [symbol?_alike stands stands' covers alike, found]
    simp only [unblank, Bool.false_eq_true, if_false]

theorem carries_identifier (name : String) (location : Location) :
    Carries (FreeNames.ofName · name) (FreeNames.ofName · name) (Check.identifier name location) := by
  refine (carries_resolve name location).followed fun symbol => ?_
  split
  · exact carries_fail _
  · exact carries_pure _

theorem carries_assignable (name : String) (location : Location) :
    Carries (FreeNames.ofName · name) (FreeNames.ofName · name) (Check.assignable name location) :=
  (carries_resolve name location).followed fun _ => carries_require _ _

theorem carries_target (name : String) (location : Location) :
    Carries (fun bound => if name == blankName then [] else FreeNames.ofName bound name)
      (fun bound => if name == blankName then [] else FreeNames.ofName bound name)
      (Check.assignable name location) := by
  by_cases blank : name = blankName
  · intro table blocks outer bound outcome after _ _ ran
    obtain ⟨_, _, resolved, _⟩ := bind_ok ran
    exact absurd blank (resolve_ok resolved).2.1
  · simpa [blank] using carries_assignable name location

theorem carries_assignables (location : Location) (targets : List String) :
    Carries (fun bound => (targets.filter (· != blankName)).flatMap (FreeNames.ofName bound))
      (fun bound => (targets.filter (· != blankName)).flatMap (FreeNames.ofName bound))
      (Check.assignables location targets) := by
  induction targets with
  | nil => exact carries_pure ()
  | cons name names ih =>
      unfold Check.assignables
      by_cases blank : name = blankName
      · simpa [blank] using (carries_pure ()).seq ih
      · simpa [blank] using (carries_assignable name location).seq ih

theorem carries_qualified (package name : String) (location : Location) :
    Carries (fun _ => []) (fun _ => []) (Check.qualified imports package name location) := by
  intro table blocks outer bound outcome after stands covers ran
  obtain ⟨_, _, got, walked⟩ := bind_ok ran
  obtain ⟨rfl, rfl⟩ := get_ok got
  rename_i table
  cases found : table.symbol? package with
  | none => rw [found] at walked; exact nomatch walked
  | some symbol =>
      obtain ⟨symbolName, kind, type?⟩ := symbol
      rw [found] at walked
      cases kind with
      | package path =>
          obtain ⟨_, _, marked, walked⟩ := bind_ok walked
          obtain rfl := modify_ok marked
          obtain ⟨_, _, spelled, walked⟩ := bind_ok walked
          obtain ⟨exported, rfl⟩ := require_ok spelled
          obtain ⟨shown, rfl⟩ := require_ok walked
          refine ⟨continues_used stands.regular package location, List.not_mem_nil,
            fun other outer' stands' alike => ?_⟩
          refine ⟨other.used package location, ?_, continues_used stands'.regular package location⟩
          have found' := (package_alike stands stands' alike rfl).mpr found
          unfold Check.qualified
          refine (bind_run rfl).trans ?_
          rw [found']
          refine (bind_run rfl).trans ?_
          rw [exported, shown]
          rfl
      | _ => exact nomatch walked

theorem carries_used (name : String) (location : Location) :
    Carries (fun _ => []) (fun _ => []) (modify (·.used name location)) := by
  intro table blocks outer bound outcome after stands covers ran
  obtain rfl := modify_ok ran
  exact ⟨continues_used stands.regular name location, List.not_mem_nil, fun other outer' stands' _ =>
    ⟨other.used name location, rfl, continues_used stands'.regular name location⟩⟩

/-! ## Declarations -/

theorem declareIn_fresh {id : Nat} {symbol : Symbol} (location : Location)
    (fresh : symbol.name = blankName ∨ table.findIn? id symbol.name = none) :
    table.declareIn id symbol location = .ok (table.symbols.size, table.insert id symbol) := by
  have free : (symbol.name != blankName && (table.findIn? id symbol.name).isSome) = false := by
    rcases fresh with blank | new
    · simp [blank]
    · simp [new]
  rw [SymbolTable.declareIn, free]
  rfl

theorem declareIn_run {id : Nat} {symbol : Symbol} (location : Location)
    (fresh : symbol.name = blankName ∨ table.findIn? id symbol.name = none) :
    Check.declareIn id symbol location table = .ok ((), table.insert id symbol) := by
  rw [Check.declareIn, declareIn_fresh location fresh]
  rfl

theorem brings_declare (symbol : Symbol) (location : Location) (isValue : meaningOf symbol.kind = .value) :
    Brings [symbol.name] (fun _ => []) (fun _ => []) (Check.declare symbol location) := by
  have placed : ∀ {table : SymbolTable} (path : String), symbol.kind = .package path →
      ∃ file, kindIn? table table.current = some (.file file) := fun path isPackage => by
    rw [isPackage] at isValue
    exact nomatch isValue
  intro table block blocks outer bound outcome after stands covers ran
  obtain ⟨number, declared⟩ := declare_ok ran
  obtain ⟨continues, rfl, new⟩ := continues_declareIn stands.regular stands.regular.current placed declared
  have stood := stands.declares continues
  rw [frame_insert stands.regular stands.regular.current, stands.innermost] at stood
  refine ⟨block.add symbol, continues, stood, covers.add, List.not_mem_nil, fun other outer' stands' _ => ?_⟩
  have fresh : symbol.name = blankName ∨ other.findIn? other.current symbol.name = none := by
    by_cases blank : symbol.name = blankName
    · exact Or.inl blank
    · have free := isSome_frame stands.regular table.current symbol.name
      have same := isSome_frame stands'.regular other.current symbol.name
      rw [stands.innermost, new blank] at free
      rw [stands'.innermost, free] at same
      exact Or.inr (Option.isNone_iff_eq_none.mp (by simpa using same.symm))
  obtain ⟨went, _, _⟩ := continues_declareIn stands'.regular stands'.regular.current placed
    (declareIn_fresh location fresh)
  have stood' := stands'.declares went
  rw [frame_insert stands'.regular stands'.regular.current, stands'.innermost] at stood'
  exact ⟨_, declareIn_run location fresh, went, stood'⟩

theorem brings_declareAll (location : Location) (symbols : List Symbol)
    (areValues : ∀ symbol ∈ symbols, meaningOf symbol.kind = .value) :
    Brings (symbols.map (·.name)) (fun _ => []) (fun _ => []) (declareAll location symbols) := by
  induction symbols with
  | nil => exact (carries_pure ()).brings
  | cons symbol rest ih =>
      exact (brings_declare symbol location (areValues symbol (by simp))).seq
        (ih fun other member => areValues other (by simp [member]))

/-- The type that a declaration gives is a type. -/
def givenType (location : Location) : Option Ty → Check Unit
  | some found => fun table => do
      Check.type location found
      pure ((), table)
  | none => pure ()

def givenValues (imports : Interfaces) (names : List String) (values : List Expr) (location : Location) :
    Check Unit :=
  if values.isEmpty then pure () else Check.valueCount imports names.length values location

/-- The types of the names of a declaration, behind all checks of it. -/
def decideTypes (imports : Interfaces) (decl : ValueDecl) : Check (List (Option Ty)) := do
  givenType decl.location decl.type?
  Check.expressions imports decl.values
  givenValues imports decl.names decl.values decl.location
  fun table => .ok (Check.declaredTypes imports table decl.names decl.type? decl.values, table)

def kindOf (decl : ValueDecl) : SymbolKind := if decl.isConst then .const else .var

theorem valueDecl_eq (scope : Nat) (decl : ValueDecl) :
    Check.valueDecl imports scope decl = decideTypes imports decl >>= fun types =>
      Check.declareValues scope (kindOf decl) decl.location decl.names types := by
  obtain ⟨isConst, names, type?, values, location⟩ := decl
  unfold Check.valueDecl decideTypes givenType givenValues kindOf
  simp only [bind_assoc]
  cases type? <;> cases values.isEmpty <;> rfl

theorem carries_decideTypes {decl : ValueDecl}
    (exprs : Carries (FreeNames.ofExprs · decl.values) (FreeNames.ofExprs · decl.values)
      (Check.expressions imports decl.values)) :
    Carries (FreeNames.ofExprs · decl.values) (FreeNames.ofExprs · decl.values) (decideTypes imports decl) := by
  have typed : Carries (fun _ => []) (fun _ => []) (givenType decl.location decl.type?) := by
    unfold givenType
    split
    · rename_i found _
      refine @carries_const _ (Check.type decl.location found) _ fun table => ?_
      cases Check.type decl.location found <;> rfl
    · exact carries_pure ()
  have counted : Carries (fun _ => []) (FreeNames.ofExprs · decl.values)
      (givenValues imports decl.names decl.values decl.location) := by
    unfold givenValues
    split
    · exact (carries_pure ()).weaken nofun nofun
    · exact carries_valueCount _ _ _
  have types : Carries (fun _ => []) (FreeNames.ofExprs · decl.values) (fun table =>
      .ok (Check.declaredTypes imports table decl.names decl.type? decl.values, table)) := by
    intro table blocks outer bound outcome after stands covers ran
    obtain ⟨rfl, rfl⟩ := Prod.mk.inj (Except.ok.inj ran)
    refine ⟨.refl none stands.regular, List.not_mem_nil, fun other outer' stands' alike =>
      ⟨other, ?_, .refl none stands'.regular⟩⟩
    dsimp only
    rw [declaredTypes_alike stands stands' covers decl.names decl.type? alike]
  exact (typed.seq (exprs.seq (counted.seq types))).weaken (by simp) (by simp)

theorem length_decideTypes {decl : ValueDecl} {types : List (Option Ty)}
    (ran : decideTypes imports decl table = .ok (types, after)) : types.length = decl.names.length := by
  obtain ⟨_, _, _, ran⟩ := bind_ok ran
  obtain ⟨_, _, _, ran⟩ := bind_ok ran
  obtain ⟨_, between, counted, ran⟩ := bind_ok ran
  obtain ⟨rfl, rfl⟩ := Prod.mk.inj (Except.ok.inj ran)
  unfold givenValues at counted
  split at counted
  · rename_i empty
    exact length_declaredTypes fun some => absurd (List.isEmpty_iff.mp empty) some
  · obtain ⟨counts, rfl⟩ := steady_valueCount _ _ _ _ _ _ counted
    rw [declaredTypes_counts]
    exact length_declaredTypes fun _ => ⟨_, _, _, counted⟩

def declaredSymbols (decl : ValueDecl) (types : List (Option Ty)) : List Symbol :=
  (decl.names.zip types).map fun (name, type?) => ⟨name, kindOf decl, type?⟩

theorem names_declaredSymbols {decl : ValueDecl} {types : List (Option Ty)}
    (same : types.length = decl.names.length) : (declaredSymbols decl types).map (·.name) = decl.names :=
  names_zip _ (fun _ => rfl) same

theorem meaningOf_declaredSymbols {decl : ValueDecl} {types : List (Option Ty)} :
    ∀ symbol ∈ declaredSymbols decl types, meaningOf symbol.kind = .value := by
  intro symbol member
  obtain ⟨_, _, rfl⟩ := List.mem_map.mp member
  unfold kindOf
  cases decl.isConst <;> rfl

/-- Declarations in the open scope. -/
theorem brings_valueDecl {decl : ValueDecl}
    (exprs : Carries (FreeNames.ofExprs · decl.values) (FreeNames.ofExprs · decl.values)
      (Check.expressions imports decl.values)) :
    Brings decl.names (FreeNames.ofExprs · decl.values) (FreeNames.ofExprs · decl.values)
      (get >>= fun table => Check.valueDecl imports table.current decl) := by
  have decides := carries_decideTypes exprs
  have declares : Brings decl.names (FreeNames.ofExprs · decl.values) (FreeNames.ofExprs · decl.values)
      (decideTypes imports decl >>= fun types => declareAll decl.location (declaredSymbols decl types)) := by
    have heads : ∀ table types between, decideTypes imports decl table = .ok (types, between) →
        Brings decl.names (fun _ => []) (fun _ => [])
          (declareAll decl.location (declaredSymbols decl types)) := by
      intro table types between ran
      rw [← names_declaredSymbols (length_decideTypes ran)]
      exact brings_declareAll _ _ meaningOf_declaredSymbols
    exact (decides.brings.bind heads).weaken (by simp) (by simp)
  -- Deciding the types leaves the open scope as it is.
  have same : ∀ {table : SymbolTable} {blocks : List Frame} {outer : Frame}, Stands table blocks outer →
      ∀ bound, Covers blocks bound →
      (get >>= fun table => Check.valueDecl imports table.current decl) table
        = (decideTypes imports decl >>= fun types => declareAll decl.location (declaredSymbols decl types)) table := by
    intro table blocks outer stands bound covers
    refine (bind_run rfl).trans ?_
    rw [valueDecl_eq]
    cases ran : decideTypes imports decl table with
    | error error => simp [bind, StateT.bind, ran, Except.bind]
    | ok both =>
        obtain ⟨continues, _⟩ := decides _ _ _ _ _ _ stands covers ran
        rw [bind_run ran, bind_run ran, ← continues.current, declareValues_eq]
        rfl
  intro table block blocks outer bound outcome after stands covers ran
  rw [same stands bound covers] at ran
  obtain ⟨block', continues, stood, covered, real, passes⟩ := declares _ _ _ _ _ _ _ stands covers ran
  refine ⟨block', continues, stood, covered, real, fun other outer' stands' alike => ?_⟩
  obtain ⟨last, passed, went, stood'⟩ := passes other outer' stands' alike
  exact ⟨last, (same stands' bound covers).trans passed, went, stood'⟩

/-- What is done depends on whether the open scope has a name, which has it afterwards. -/
theorem Brings.look {name : String} {choice : Option Symbol → Check α}
    (fresh : Brings (name :: names) named needs (choice none))
    (known : ∀ symbol, Brings names named needs (choice (some symbol))) :
    Brings (name :: names) named needs (get >>= fun table => choice (frame table table.current name)) := by
  intro table block blocks outer bound outcome after stands covers ran
  have chosen : ∀ {table : SymbolTable} {outer : Frame}, Stands table (block :: blocks) outer →
      (get >>= fun table => choice (frame table table.current name)) table = choice (block name) table :=
    fun stands => (bind_run rfl).trans (by rw [stands.innermost])
  rw [chosen stands] at ran
  cases found : block name with
  | none =>
      rw [found] at ran
      obtain ⟨block', continues, stood, covered, real, passes⟩ := fresh _ _ _ _ _ _ _ stands covers ran
      refine ⟨block', continues, stood, covered, real, fun other outer' stands' alike => ?_⟩
      rw [chosen stands', found]
      exact passes other outer' stands' alike
  | some symbol =>
      rw [found] at ran
      obtain ⟨block', continues, stood, covered, real, passes⟩ := known symbol _ _ _ _ _ _ _ stands covers ran
      refine ⟨block', continues, stood, fun other unblank => ?_, real, fun other outer' stands' alike => ?_⟩
      · rw [← covered other unblank, List.cons_append, List.mem_cons]
        refine or_iff_right_of_imp fun same => List.mem_append_right _ ?_
        subst same
        exact (covers other unblank).mpr ⟨block, List.mem_cons_self, by rw [found]; rfl⟩
      · rw [chosen stands', found]
        exact passes other outer' stands' alike

/-- Defines a name of a short declaration, of which the open scope may have a symbol, and then the others. -/
def defineNext (location : Location) (name : String) (type? : Option Ty) (others : Check Bool) :
    Option Symbol → Check Bool
  | some symbol => do
      modify (·.used name location)
      Check.require symbol.kind.isAssignable (.notAssignable name location)
      others
  | none => do
      Check.declare ⟨name, .var, type?⟩ location
      let _ ← others
      pure true

theorem brings_defineValues (location : Location) (names : List String) (types : List (Option Ty))
    (same : types.length = names.length) :
    Brings names (fun _ => []) (fun _ => []) (Check.defineValues location names types) := by
  induction names generalizing types with
  | nil => exact (carries_pure false).brings
  | cons name names ih =>
      cases types with
      | nil => exact nomatch same
      | cons type? types =>
          have rest := ih types (Nat.succ.inj same)
          unfold Check.defineValues
          split
          · rename_i blank
            obtain rfl : name = blankName := by simpa using blank
            exact rest.congr fun other real => by simp [real]
          · -- A new name is declared, and one that the block has is used.
            have fresh := (brings_declare ⟨name, .var, type?⟩ location rfl).seq
              (rest.bind fun _ _ _ _ => (carries_pure true).brings)
            have known := fun symbol : Symbol => (carries_used name location).brings.seq
              ((carries_require symbol.kind.isAssignable (.notAssignable name location)).brings.seq rest)
            rw [List.append_nil] at fresh
            exact @Brings.look _ names _ _ name
              (defineNext location name type? (Check.defineValues location names types)) fresh known

def defineNew (location : Location) (names : List String) (types : List (Option Ty)) : Check Unit := do
  let isNew ← Check.defineValues location names types
  Check.require isNew (.noNewVariables location)

theorem define_eq {names : List String} {values : List Expr} (location : Location) (body : Check.Body)
    (some : values ≠ []) :
    Check.statement imports body (.define names values location)
      = decideTypes imports ⟨false, names, none, values, location⟩ >>= defineNew location names := by
  cases values with
  | nil => exact absurd rfl some
  | cons first rest =>
      rw [Check.statement]
      unfold decideTypes
      simp only [bind_assoc]
      rfl

/-- A short declaration. -/
theorem brings_define {names : List String} {values : List Expr} {location : Location} {body : Check.Body}
    (some : values ≠ [])
    (exprs : Carries (FreeNames.ofExprs · values) (FreeNames.ofExprs · values) (Check.expressions imports values)) :
    Brings names (FreeNames.ofExprs · values) (FreeNames.ofExprs · values)
      (Check.statement imports body (.define names values location)) := by
  have heads : ∀ table types between,
      decideTypes imports ⟨false, names, none, values, location⟩ table = .ok (types, between) →
      Brings names (fun _ => []) (fun _ => []) (defineNew location names types) := by
    intro table types between ran
    have defines := brings_defineValues location names types (length_decideTypes ran)
    have both := defines.bind fun _ isNew _ _ => (carries_require isNew (.noNewVariables location)).brings
    rwa [List.append_nil] at both
  rw [define_eq location body some]
  exact ((@carries_decideTypes _ ⟨false, names, none, values, location⟩ exprs).brings.bind heads).weaken
    (by simp) (by simp)

def parameterSymbols (signature : Signature) : List Symbol :=
  (signature.params.map fun param => ⟨param.name, .parameter, some param.type⟩)
    ++ (signature.resultNames.zip signature.results).map fun (name, type) => ⟨name, .var, some type⟩

theorem names_parameterSymbols {signature : Signature} (formed : Syntax.Formed.signature signature) :
    (parameterSymbols signature).map (·.name) = FreeNames.parameters signature := by
  have results : ((signature.resultNames.zip signature.results).map
      fun (name, type) => (⟨name, .var, some type⟩ : Symbol)).map (·.name) = signature.resultNames := by
    rcases formed.2.2.2 with empty | same
    · simp only [empty, List.zip_nil_left, List.map_nil]
    · exact names_zip _ (fun _ => rfl) same.symm
  rw [parameterSymbols, List.map_append, results, List.map_map]
  rfl

theorem meaningOf_parameterSymbols {signature : Signature} :
    ∀ symbol ∈ parameterSymbols signature, meaningOf symbol.kind = .value := by
  intro symbol member
  rcases List.mem_append.mp member with here | here
  all_goals
    obtain ⟨_, _, rfl⟩ := List.mem_map.mp here
    rfl

theorem carries_signature (signature : Signature) (location : Location) :
    Carries (fun _ => []) (fun _ => []) (Check.signature signature location) := by
  refine @carries_const _ (do
    Check.types location (signature.params.map (·.type))
    Check.types location signature.results) _ fun table => ?_
  unfold Check.signature
  cases Check.types location (signature.params.map (·.type)) with
  | error error => rfl
  | ok _ => cases Check.types location signature.results <;> rfl

/-- The body of a function, in a scope with the names of its signature. -/
theorem function_carries_body {name : String} {signature : Signature} {body : List Stmt} {location : Location}
    (formed : Syntax.Formed.signature signature) {names : List String}
    (stmts : Brings names (FreeNames.ofStmts · body) (FreeNames.ofStmts · body)
      (Check.statements imports (.ofFunction name signature) body)) :
    Carries (FreeNames.ofFunction · ⟨signature, body, location⟩) (FreeNames.ofFunction · ⟨signature, body, location⟩)
      (do
        Check.inScope (.function name) do
          Check.declareParameters location signature.params
          Check.declareResults location signature.resultNames signature.results
          Check.statements imports (.ofFunction name signature) body
        Check.require (signature.results.isEmpty || isTerminatingList body) (.missingReturn name location)) := by
  have heads := brings_declareAll location (parameterSymbols signature) meaningOf_parameterSymbols
  rw [names_parameterSymbols formed] at heads
  rw [declareParameters_eq, declareResults_eq, ← bind_assoc, declareAll_append]
  refine ((heads.seq stmts).inScope rfl).followed (fun _ => carries_require _ _) |>.weaken ?_ ?_
  · simp [FreeNames.ofFunction]
  · simp [FreeNames.ofFunction]

/-! ## Trees -/

mutual

theorem expression_carries : (found : Expr) → Formed.expr found →
    Carries (FreeNames.ofExpr · found) (FreeNames.ofExpr · found) (Check.expression imports found)
  | .integer _, _ | .float _, _ | .string _, _ => by
      unfold Check.expression
      exact (carries_pure ()).weaken (by simp [FreeNames.ofExpr]) nofun
  | .identifier name location, _ => by
      unfold Check.expression
      simpa only [FreeNames.ofExpr] using carries_identifier name location
  | .qualified package name location, _ => by
      unfold Check.expression
      exact (carries_qualified package name location).weaken (by simp [FreeNames.ofExpr]) nofun
  | .binary left _ right _, formed => by
      rw [Formed.expr] at formed
      unfold Check.expression
      refine ((expression_carries left formed.1).seq ((carries_single left).seq
        ((expression_carries right formed.2).seq (carries_single right)))).weaken ?_ ?_
      · simp [FreeNames.ofExpr]
      · simp [FreeNames.ofExpr]
  | .unary _ operand _, formed => by
      rw [Formed.expr] at formed
      unfold Check.expression
      exact ((expression_carries operand formed).seq (carries_single operand)).weaken
        (by simp [FreeNames.ofExpr]) (by simp [FreeNames.ofExpr])
  | .call callee args _, formed => by
      rw [Formed.expr] at formed
      unfold Check.expression
      exact ((expression_carries callee formed.1).seq ((carries_single callee).seq
        (arguments_carries args formed.2))).weaken (by simp [FreeNames.ofExpr]) (by simp [FreeNames.ofExpr])
  | .function literal, formed => by
      rw [Formed.expr] at formed
      unfold Check.expression
      simpa only [FreeNames.ofExpr] using function_carries literal Check.literalTitle true formed

theorem expressions_carries : (found : List Expr) → Formed.exprs found →
    Carries (FreeNames.ofExprs · found) (FreeNames.ofExprs · found) (Check.expressions imports found)
  | [], _ => by
      unfold Check.expressions
      exact (carries_pure ()).weaken (by simp [FreeNames.ofExprs]) nofun
  | first :: rest, formed => by
      rw [Formed.exprs] at formed
      unfold Check.expressions
      exact ((expression_carries first formed.1).seq (expressions_carries rest formed.2)).weaken
        (by simp [FreeNames.ofExprs]) (by simp [FreeNames.ofExprs])

theorem operands_carries : (found : List Expr) → Formed.exprs found →
    Carries (FreeNames.ofExprs · found) (FreeNames.ofExprs · found) (Check.operands imports found)
  | [], _ => by
      unfold Check.operands
      exact (carries_pure ()).weaken (by simp [FreeNames.ofExprs]) nofun
  | first :: rest, formed => by
      rw [Formed.exprs] at formed
      unfold Check.operands
      exact ((expression_carries first formed.1).seq ((carries_single first).seq
        (operands_carries rest formed.2))).weaken (by simp [FreeNames.ofExprs]) (by simp [FreeNames.ofExprs])

theorem optionalOperand_carries : (found : Option Expr) → Formed.optionalExpr found →
    Carries (FreeNames.ofOptionalExpr · found) (FreeNames.ofOptionalExpr · found)
      (Check.optionalOperand imports found)
  | none, _ => by
      unfold Check.optionalOperand
      exact (carries_pure ()).weaken (by simp [FreeNames.ofOptionalExpr]) nofun
  | some operand, formed => by
      rw [Formed.optionalExpr] at formed
      unfold Check.optionalOperand
      exact ((expression_carries operand formed).seq (carries_single operand)).weaken
        (by simp [FreeNames.ofOptionalExpr]) (by simp [FreeNames.ofOptionalExpr])

theorem arguments_carries : (found : List Expr) → Formed.exprs found →
    Carries (FreeNames.ofExprs · found) (FreeNames.ofExprs · found) (Check.arguments imports found)
  | [], _ => by
      unfold Check.arguments
      exact (carries_pure ()).weaken (by simp [FreeNames.ofExprs]) nofun
  | [arg], formed => by
      rw [Formed.exprs] at formed
      unfold Check.arguments
      have counted : Carries (fun _ => []) (FreeNames.ofExpr · arg) (if arg.isCall then do
            let found ← Check.count imports arg
            Check.require (found != some 0) (.noValue (arg.location?.getD Location.nowhere))
          else Check.single imports arg) := by
        split
        · exact (carries_count arg).followed fun _ => carries_require _ _
        · exact carries_single arg
      exact ((expression_carries arg formed.1).seq counted).weaken (by simp [FreeNames.ofExprs])
        (by simp [FreeNames.ofExprs])
  | first :: second :: rest, formed => by
      rw [Formed.exprs, Formed.exprs] at formed
      unfold Check.arguments
      exact ((expression_carries first formed.1).seq ((carries_single first).seq
        ((expression_carries second formed.2.1).seq ((carries_single second).seq
          (operands_carries rest formed.2.2))))).weaken (by simp [FreeNames.ofExprs])
            (by simp [FreeNames.ofExprs])

theorem function_carries : (found : FunctionLiteral) → (name : String) → (isLiteral : Bool) →
    Formed.function found →
    Carries (FreeNames.ofFunction · found) (FreeNames.ofFunction · found)
      (Check.function imports name isLiteral found)
  | ⟨signature, body, location⟩, name, isLiteral, formed => by
      rw [Formed.function] at formed
      have walked := @function_carries_body imports name signature body location formed.1 _
        (statements_brings (.ofFunction name signature) body formed.2)
      unfold Check.function
      cases isLiteral with
      | false => exact walked
      | true => exact ((carries_signature signature location).seq walked).weaken (by simp) (by simp)

theorem statement_brings : (body : Check.Body) → (found : Stmt) → Formed.stmt found →
    Brings (declared found) (fun bound => (FreeNames.ofStmt bound found).2)
      (fun bound => (FreeNames.ofStmt bound found).2) (Check.statement imports body found)
  | _, .declare decl, formed => by
      obtain ⟨isConst, names, type?, values, location⟩ := decl
      rw [Formed.stmt, Formed.valueDecl] at formed
      unfold Check.statement
      simpa only [FreeNames.ofStmt, FreeNames.ofDecl, declared] using
        brings_valueDecl (expressions_carries values formed.2.2.1)
  | body, .define names values location, formed => by
      rw [Formed.stmt] at formed
      simpa only [FreeNames.ofStmt, declared] using
        brings_define formed.2.1 (expressions_carries values formed.2.2)
  | _, .assign targets values location, formed => by
      rw [Formed.stmt] at formed
      unfold Check.statement
      refine ((expressions_carries values formed.2.2).seq ((carries_assignables location targets).seq
        (carries_valueCount targets.length values location))).brings.weaken ?_ ?_
      · simp [FreeNames.ofStmt]
      · intro bound name
        simp only [FreeNames.ofStmt, List.mem_append]
        tauto
  | _, .compound target op value location, formed => by
      rw [Formed.stmt] at formed
      unfold Check.statement
      refine ((expression_carries value formed.2.2).seq ((carries_target target location).seq
        (carries_valueCount 1 [value] location))).brings.weaken ?_ ?_
      · simp [FreeNames.ofStmt]
      · intro bound name
        simp only [FreeNames.ofStmt, FreeNames.ofExprs, List.mem_append]
        tauto
  | _, .step target _ location, _ => by
      unfold Check.statement
      simpa only [FreeNames.ofStmt, declared] using (carries_assignable target location).brings
  | body, .ifElse found, formed => by
      rw [Formed.stmt] at formed
      unfold Check.statement
      simpa only [FreeNames.ofStmt, declared] using (conditional_carries body found formed).brings
  | body, .loop init condition post inner _, formed => by
      rw [Formed.stmt] at formed
      obtain ⟨first, tested, last, silent, rounds⟩ := formed
      unfold Check.statement
      have quiet := declaredBy_silent silent
      -- What ends a round declares nothing, so the body stands in the scope of the header.
      refine (((optionalStatement_brings body init first).seq
        ((optionalOperand_carries condition tested).brings.seq
          ((optionalStatement_brings body post last).seq
            ((statements_brings body.inside inner rounds).inScope rfl).brings))).inScope rfl).brings.weaken ?_ ?_
      · simp [FreeNames.ofStmt, bound_ofOptionalStmt, quiet]
      · simp [FreeNames.ofStmt, bound_ofOptionalStmt, quiet]
  | body, .switch init tag found _, formed => by
      rw [Formed.stmt] at formed
      unfold Check.statement
      refine (((optionalStatement_brings body init formed.1).seq
        ((optionalOperand_carries tag formed.2.1).seq (cases_carries body found formed.2.2.1)).brings).inScope
          rfl).brings.weaken ?_ ?_
      · simp [FreeNames.ofStmt, bound_ofOptionalStmt]
      · simp [FreeNames.ofStmt, bound_ofOptionalStmt]
  | body, .return values location, formed => by
      rw [Formed.stmt] at formed
      unfold Check.statement
      exact ((expressions_carries values formed).seq (carries_returnCount body values location)).brings.weaken
        (by simp [FreeNames.ofStmt]) (by simp [FreeNames.ofStmt])
  | _, .break _, _ | _, .continue _, _ => by
      unfold Check.statement
      exact (carries_require _ _).brings.weaken (by simp [FreeNames.ofStmt]) nofun
  | body, .block inner, formed => by
      rw [Formed.stmt] at formed
      unfold Check.statement
      simpa only [FreeNames.ofStmt, declared] using ((statements_brings body inner formed).inScope rfl).brings
  | _, .expression found, formed => by
      rw [Formed.stmt] at formed
      unfold Check.statement
      simpa only [FreeNames.ofStmt, declared] using (expression_carries found formed).brings

theorem statements_brings : (body : Check.Body) → (found : List Stmt) → Formed.stmts found →
    Brings (found.flatMap declared) (FreeNames.ofStmts · found) (FreeNames.ofStmts · found)
      (Check.statements imports body found)
  | _, [], _ => by
      unfold Check.statements
      exact (carries_pure ()).brings.weaken (by simp [FreeNames.ofStmts]) nofun
  | body, first :: rest, formed => by
      rw [Formed.stmts] at formed
      unfold Check.statements
      refine ((statement_brings body first formed.1).seq (statements_brings body rest formed.2.2)).weaken ?_ ?_
      · simp [FreeNames.ofStmts, bound_ofStmt]
      · simp [FreeNames.ofStmts, bound_ofStmt]

theorem optionalStatement_brings : (body : Check.Body) → (found : Option Stmt) → Formed.header found →
    Brings (declaredBy found) (fun bound => (FreeNames.ofOptionalStmt bound found).2)
      (fun bound => (FreeNames.ofOptionalStmt bound found).2) (Check.optionalStatement imports body found)
  | _, none, _ => by
      unfold Check.optionalStatement
      exact (carries_pure ()).brings.weaken (by simp [FreeNames.ofOptionalStmt]) nofun
  | body, some found, formed => by
      rw [Formed.header] at formed
      unfold Check.optionalStatement
      simpa only [FreeNames.ofOptionalStmt, declaredBy] using statement_brings body found formed.1

theorem conditional_carries : (body : Check.Body) → (found : IfStmt) → Formed.ifStmt found →
    Carries (FreeNames.ofIf · found) (FreeNames.ofIf · found) (Check.conditional imports body found)
  | body, ⟨init, condition, inner, orElse, _⟩, formed => by
      rw [Formed.ifStmt] at formed
      obtain ⟨first, tested, taken, other⟩ := formed
      unfold Check.conditional
      refine ((optionalStatement_brings body init first).seq
        ((expression_carries condition tested).seq ((carries_single condition).seq
          (((statements_brings body inner taken).inScope rfl).seq
            (elseBranch_carries body orElse other)))).brings).inScope rfl |>.weaken ?_ ?_
      · simp [FreeNames.ofIf, bound_ofOptionalStmt]
      · simp [FreeNames.ofIf, bound_ofOptionalStmt]

theorem elseBranch_carries : (body : Check.Body) → (found : ElseBranch) → Formed.elseBranch found →
    Carries (FreeNames.ofElse · found) (FreeNames.ofElse · found) (Check.elseBranch imports body found)
  | _, .absent, _ => by
      unfold Check.elseBranch
      exact (carries_pure ()).weaken (by simp [FreeNames.ofElse]) nofun
  | body, .block inner, formed => by
      rw [Formed.elseBranch] at formed
      unfold Check.elseBranch
      simpa only [FreeNames.ofElse] using (statements_brings body inner formed).inScope rfl
  | body, .chain next, formed => by
      rw [Formed.elseBranch] at formed
      unfold Check.elseBranch
      simpa only [FreeNames.ofElse] using conditional_carries body next formed

theorem caseLabel_carries : (found : CaseLabel) → Formed.caseLabel found →
    Carries (FreeNames.ofLabel · found) (FreeNames.ofLabel · found) (Check.caseLabel imports found)
  | .values values, formed => by
      rw [Formed.caseLabel] at formed
      unfold Check.caseLabel
      simpa only [FreeNames.ofLabel] using operands_carries values formed.2
  | .otherwise, _ => by
      unfold Check.caseLabel
      exact (carries_pure ()).weaken (by simp [FreeNames.ofLabel]) nofun

theorem cases_carries : (body : Check.Body) → (found : List SwitchCase) → Formed.cases found →
    Carries (FreeNames.ofCases · found) (FreeNames.ofCases · found) (Check.cases imports body found)
  | _, [], _ => by
      unfold Check.cases
      exact (carries_pure ()).weaken (by simp [FreeNames.ofCases]) nofun
  | body, ⟨label, inner, _⟩ :: rest, formed => by
      rw [Formed.cases] at formed
      unfold Check.cases
      refine ((caseLabel_carries label formed.1).seq
        (((statements_brings body.insideCase inner formed.2.1).inScope rfl).seq
          (cases_carries body rest formed.2.2))).weaken ?_ ?_
      · simp [FreeNames.ofCases, FreeNames.ofCase]
      · simp [FreeNames.ofCases, FreeNames.ofCase]

end

end MiniGo.Lexical
