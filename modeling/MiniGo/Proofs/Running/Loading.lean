import MiniGo.Proofs.Running.Opening

/-!
# Loading packages

A package that was checked is loaded: its initializers run in their order, and after each one the
names that lead to initialized declarations only become ready. `Stage` is the invariant between two
initializers. In the end every name of the package is ready, so the package offers its interface.
-/

namespace MiniGo.Running

open Lexical
open Initialization

variable {program : Nat → Facts} {session : Session} {world : World} {index : Nat}
  {package : Package} {scope : ScopeId} {indices : List Nat}

/-- What every world of a session knows of the outermost scope. -/
structure Grounded (world : World) : Prop where
  old : 0 < world.size
  place : world.place 0 = .outermost
  predeclared : ∀ name ∈ SymbolTable.predeclared.map (·.name), HasValue world 0 name

theorem Grounded.grows {top : Option ScopeId} {later : World} (grows : Grows top world later)
    (grounded : Grounded world) : Grounded later where
  old := Nat.lt_of_lt_of_le grounded.old grows.size
  place := by rw [grows.place 0 grounded.old, grounded.place]
  predeclared name member := (grounded.predeclared name member).grows grows

/-- The package was checked, and `program` has what was found out about it. -/
abbrev IsPrepared (program : Nat → Facts) (index : Nat) (package : Package) (indices : List Nat) : Prop :=
  Prepared (program index).imports package (program index).table indices

/-- A package is being loaded, and the declarations `done` are initialized. -/
structure Stage (program : Nat → Facts) (world : World) (index : Nat) (package : Package)
    (scope : ScopeId) (envs : List Env) (done : List Nat) : Prop where
  grounded : Grounded world
  above : 0 < scope
  old : scope < world.size
  place : world.place scope = .inside index 1
  files : FilesFit (program index) world index scope 0 package.files envs
  names : ∀ name, (world.slot scope name).isSome ↔ name ∈ real (topNames package done)
  values : ∀ name slot, world.slot scope name = some slot → ∃ kind mutable, slot = .value kind mutable
  functions : ∀ (position : Nat) (file : SourceFile), package.files[position]? = some file →
    ∀ function ∈ file.program.functions, function.1 ≠ blankName → ∃ number id,
      envs[position]? = some [id, scope, 0] ∧ world.constant scope function.1
        = some (.function ⟨number, function.1, function.2, [id, scope, 0]⟩)
  initialized : ∀ position ∈ done, ∀ name ∈ real (namesAt package position), world.ready scope name

/-- The names that may be used behind some initializers are ready. -/
def Awake (world : World) (package : Package) (scope : ScopeId) (done : List Nat) : Prop :=
  ∀ name, Ready package done name → world.ready scope name

variable {envs : List Env} {done : List Nat}

theorem Stage.grows {later : World} (grows : Grows none world later)
    (stage : Stage program world index package scope envs done) :
    Stage program later index package scope envs done where
  grounded := stage.grounded.grows grows
  above := stage.above
  old := Nat.lt_of_lt_of_le stage.old grows.size
  place := by rw [grows.place scope stage.old, stage.place]
  files := stage.files.grows grows
  names name := by rw [grows.fixed scope stage.old nofun, stage.names]
  values name slot known := by
    rw [grows.fixed scope stage.old nofun] at known
    exact stage.values name slot known
  functions position file found function member named :=
    let ⟨number, id, here, known⟩ := stage.functions position file found function member named
    ⟨number, id, here, grows.constant _ _ _ known⟩
  initialized position member name inside :=
    grows.ready _ _ (stage.initialized position member name inside)

/-! ## Contexts of files -/

theorem meaningOf_value {imports : Interfaces} {table : SymbolTable} (layout : Layout imports package table)
    {id number : Nat} {name : String} {symbol : Symbol} (found : table.findIn? id name = some number)
    (known : table.symbols[number]? = some symbol)
    (plain : ∀ path, kindIn? table id ≠ some (.file path)) : meaningOf symbol.kind = .value := by
  cases kind : symbol.kind with
  | package path =>
      obtain ⟨file, isFile⟩ := layout.regular.imported id name number symbol path found known kind
      exact absurd isFile (plain file)
  | _ => rfl

theorem fits_outermost (layout : Layout (program index).imports package (program index).table)
    (grounded : Grounded world) (ready : String → Prop) :
    LayerFits (program index) world index ⟨0, .outer, view (program index).table ready 0⟩ 0 where
  old := grounded.old
  place := grounded.place
  names name meaning seen := by
    obtain ⟨number, symbol, found, known, rfl, _⟩ := view_eq_some seen
    have isValue := meaningOf_value layout found known (by rw [layout.outermost]; exact nofun)
    obtain ⟨ready, bound⟩ := grounded.predeclared name
      ((layout.predeclared name).mp (by rw [found]; rfl))
    rw [isValue]
    exact ⟨ready, bound⟩
  own absurd := nomatch absurd

theorem FileFits.layer {file : SourceFile} {position : Nat} {id : ScopeId}
    (layout : Layout (program index).imports package (program index).table)
    (found : package.files[position]? = some file)
    (fits : FileFits (program index) world index file position id) (ready : String → Prop) :
    LayerFits (program index) world index
      ⟨2 + position, .outer, view (program index).table ready (2 + position)⟩ id where
  old := fits.old
  place := by
    have inside : 2 + position ≠ 0 := by omega
    rw [fits.place]
    exact (if_neg inside).symm
  names name meaning seen := by
    obtain ⟨number, symbol, has, known, rfl, _⟩ := view_eq_some seen
    have checked := layout.files position file found
    obtain ⟨source, member, rfl, kind⟩ := checked.imported name number symbol has known
    have named := (mem_real.mp ((checked.has _).mp (by rw [has]; rfl))).2
    rw [kind]
    exact fits.imported source member named
  own absurd := nomatch absurd

/-- The context of a file fits when the names that are ready have values. -/
theorem Stage.fits (prepared : IsPrepared program index package indices)
    (stage : Stage program world index package scope envs done) (awake : Awake world package scope done)
    {position : Nat} {file : SourceFile} (found : package.files[position]? = some file) :
    ∃ id, envs[position]? = some [id, scope, 0] ∧ Fits program world index
      (fileContext (program index).table (Ready package done) position) [id, scope, 0] := by
  obtain ⟨id, here, above, fits⟩ := stage.files position file found
  rw [Nat.zero_add] at fits
  refine ⟨id, here, ?_, ?_⟩
  · rw [fileContext_layers prepared.layout found]
    refine .cons (fits.layer prepared.layout found _)
      (.cons ⟨stage.old, ?_, fun name meaning seen => ?_, nofun⟩
        (.cons (fits_outermost prepared.layout stage.grounded _) .nil))
    · rw [stage.place]
      exact (if_neg Nat.one_ne_zero).symm
    · obtain ⟨number, symbol, has, known, rfl, ready⟩ := view_eq_some seen
      have isReady := ready ⟨_, prepared.layout.kind⟩
      have isValue := meaningOf_value prepared.layout has known (by rw [prepared.layout.kind]; exact nofun)
      obtain ⟨slot, bound⟩ := Option.isSome_iff_exists.mp ((stage.names name).mpr isReady.mem_topNames)
      obtain ⟨kind, mutable, rfl⟩ := stage.values name slot bound
      rw [isValue]
      exact ⟨awake name isReady, kind, mutable, bound⟩
  · refine List.pairwise_cons.mpr ⟨fun other member => ?_, List.pairwise_cons.mpr ⟨fun other member => ?_,
      List.pairwise_singleton _ _⟩⟩
    · rcases List.mem_cons.mp member with rfl | outermost
      · exact above
      · obtain rfl := List.mem_singleton.mp outermost
        exact Nat.lt_trans stage.above above
    · obtain rfl := List.mem_singleton.mp member
      exact stage.above

/-! ## Names that become ready -/

theorem ready_inside (prepared : IsPrepared program index package indices) {name : String}
    {literal : FunctionLiteral} (function : (name, literal) ∈ functionsOf package)
    (ready : Ready package done name) :
    ∀ inner ∈ FreeNames.ofFunction [] literal, (program index).Declares 1 inner →
      Ready package done inner := by
  intro inner free declared
  have member := (prepared.names inner).mp declared
  refine ⟨(mem_real.mp member).2, lookup_of_mem_topNames member, fun needed leads => ?_⟩
  exact ready.2.2 needed
    (.function (prepared.distinct.lookup_function ready.1 function) free leads)

/-- The names of initialized declarations are ready already; a function is judged in the names that are
ready together with it. -/
theorem Stage.wake (prepared : IsPrepared program index package indices)
    (stage : Stage program world index package scope envs done) {machine : Machine}
    (inv : Inv program world machine) :
    ∃ later, Grows none world later ∧ Inv program later machine ∧
      Stage program later index package scope envs done ∧ Awake later package scope done := by
  let more : ScopeId → String → Prop := fun id name => id = scope ∧ Ready package done name
  have grows := grows_wake world more
  have stageLater : Stage program (world.wake more) index package scope envs done := stage.grows grows
  have awake : Awake (world.wake more) package scope done := fun name ready => Or.inr ⟨rfl, ready⟩
  refine ⟨world.wake more, grows, inv.later grows ?_, stageLater, awake⟩
  refine inv.typed.wake (fun id name now => ?_) fun id name binding now bound storable => ⟨storable, ?_⟩
  · obtain ⟨rfl, ready⟩ := now
    exact Option.isSome_iff_exists.mp ((stage.names name).mpr ready.mem_topNames)
  · obtain ⟨rfl, ready⟩ := now
    obtain ⟨member, named⟩ := mem_real.mp ready.mem_topNames
    -- A function may be called now that all it leads to is initialized; a value was offered before.
    rcases List.mem_append.mp member with isFunction | isValue
    · obtain ⟨⟨_, literal⟩, inside, rfl⟩ := List.mem_map.mp isFunction
      obtain ⟨file, fileInside, function⟩ := List.mem_flatMap.mp inside
      obtain ⟨position, found⟩ := List.getElem?_of_mem fileInside
      obtain ⟨number, id, here, constant⟩ := stage.functions position file found _ function named
      obtain ⟨id', here', fits⟩ := stageLater.fits prepared awake found
      obtain rfl : id = id' := by
        rw [here] at here'
        exact (List.cons.inj (Option.some.inj here')).1
      have same := inv.typed.constant _ _ _ constant
      rw [bound] at same
      obtain rfl := Option.some.inj same
      intro closure isClosure
      obtain rfl := Value.function.inj isClosure
      refine ⟨index, _, fits, ?_, prepared.functions position file found _ function _
        (ready_inside prepared inside ready)⟩
      rw [fileContext_layers prepared.layout found]
      simp
    · obtain ⟨position, isDone, inside⟩ := List.mem_flatMap.mp isValue
      have isReady := stage.initialized position isDone name (mem_real.mpr ⟨inside, named⟩)
      obtain ⟨slot, known⟩ := inv.typed.sane.ready _ name isReady
      obtain ⟨kind, mutable, rfl⟩ := stage.values name slot known
      exact ((inv.typed.valid _ name binding kind mutable bound known isReady).grows grows).2

/-! ## Initializers -/

/-- Behind the initializer of some names the scope of a package has these names too, and they are
ready. -/
structure Initialized (before after : World) (scope : ScopeId) (gained : List String) : Prop where
  names : ∀ name, (after.slot scope name).isSome ↔
    (before.slot scope name).isSome ∨ name ∈ real gained
  values : ∀ name slot, after.slot scope name = some slot →
    before.slot scope name = some slot ∨ ∃ kind mutable, slot = .value kind mutable
  ready : ∀ name ∈ real gained, after.ready scope name

theorem Initialized.cons {first second third : World} {name : String} {names : List String}
    {top : Option ScopeId} (here : Initialized first second scope [name])
    (rest : Initialized second third scope names) (grows : Grows top second third) :
    Initialized first third scope (name :: names) where
  names other := by
    rw [rest.names, here.names, real_cons name names, List.mem_append, or_assoc]
  values other slot known :=
    (rest.values other slot known).elim (here.values other slot) Or.inr
  ready other member := by
    rw [real_cons] at member
    exact (List.mem_append.mp member).elim
      (fun first => grows.ready _ _ (here.ready other first)) (rest.ready other)

theorem initialized_nil (world : World) (scope : ScopeId) : Initialized world world scope [] where
  names _ := by simp [real]
  values _ _ known := Or.inl known
  ready _ member := absurd member List.not_mem_nil

theorem initialized_blank (world : World) (scope : ScopeId) : Initialized world world scope [blankName] where
  names _ := by simp [real]
  values _ _ known := Or.inl known
  ready _ member := by simp [real] at member

theorem initialized_bound {name : String} (named : name ≠ blankName) (kind : Kind) (mutable : Bool) :
    Initialized world (world.bound scope name (.value kind mutable) True) scope [name] where
  names other := by
    have isReal : name ∈ real [name] := mem_real.mpr ⟨List.mem_singleton_self name, named⟩
    by_cases same : other = name
    · simp [World.bound, same, isReal]
    · have apart : other ∉ real [name] := fun member =>
        same (List.mem_singleton.mp (mem_real.mp member).1)
      simp [World.bound, same, apart]
  values other slot known := by
    by_cases same : other = name
    · simp only [World.bound, same, and_self, if_true, Option.some.injEq] at known
      exact Or.inr ⟨_, _, known.symm⟩
    · simp only [World.bound, same, and_false, if_false] at known
      exact Or.inl known
  ready other member := by
    obtain rfl := List.mem_singleton.mp (mem_real.mp member).1
    exact Or.inr ⟨trivial, rfl, rfl⟩

theorem Keeps.bindFirst {calls : CallStack} {name : String} {value : Value} {type? : Option Ty}
    {mutable : Bool} (old : scope < world.size) (place : world.place scope = .inside index 1)
    (declared : name ≠ blankName → (program index).Declares 1 name)
    (free : name ≠ blankName → world.slot scope name = none) (valid : Valid program world value)
    (conform : ∀ type, type? = some type → value.conformsTo type = true) :
    Keeps program calls (some scope) world (Eval.bindTyped [scope, 0] name type? value mutable)
      (fun later _ => Initialized world later scope [name]) := by
  by_cases named : name = blankName
  · subst named
    refine (Keeps.bind_blank conform).weaken ?_
    rintro _ _ _ rfl
    exact initialized_blank world scope
  · have binds : Keeps program calls (some scope) world
        (Eval.bindTyped [scope, 0] name type? value mutable)
        (fun later _ => world.bound scope name (.value value.kind mutable) True = later) :=
      Keeps.bindNew named old (free named) ⟨rfl, rfl⟩ (by rw [place]; exact declared named)
        (by rintro _ _ ⟨⟩; exact valid.1) (by rintro _ ⟨⟩) (Or.inl trivial)
        (fun _ _ _ _ => valid) conform
    refine binds.weaken ?_
    rintro _ _ _ rfl
    exact initialized_bound named value.kind mutable

/-- The values of an initializer are bound in the scope of the package. -/
theorem Keeps.bindInitial {calls : CallStack} {names : List String} {values : List Value}
    {type? : Option Ty} {mutable : Bool} (old : scope < world.size)
    (place : world.place scope = .inside index 1)
    (declared : ∀ name ∈ real names, (program index).Declares 1 name)
    (free : ∀ name ∈ real names, world.slot scope name = none) (nodup : (real names).Nodup)
    (count : values.length = names.length) (valid : AllValid program world values)
    (conform : ∀ type, type? = some type → ∀ value ∈ values, value.conformsTo type = true) :
    Keeps program calls (some scope) world (Eval.bindValues [scope, 0] mutable type? names values)
      (fun later _ => Initialized world later scope names) := by
  induction names generalizing world values with
  | nil => exact .pure (initialized_nil world scope)
  | cons name names ih =>
      cases values with
      | nil => cases count
      | cons value values =>
          obtain ⟨validFirst, validRest⟩ := List.forall_mem_cons.mp valid
          rw [real_cons] at nodup declared free
          have isReal (named : name ≠ blankName) : name ∈ real [name] ++ real names :=
            List.mem_append_left _ (mem_real.mpr ⟨List.mem_singleton_self name, named⟩)
          have binds : Keeps program calls (some scope) world
              (Eval.bindTyped [scope, 0] name type? value mutable)
              (fun later _ => Initialized world later scope [name]) :=
            Keeps.bindFirst old place (fun named => declared name (isReal named))
              (fun named => free name (isReal named)) validFirst
              fun type same => conform type same value (by simp)
          refine binds.bind fun later _ grows first => ?_
          refine (ih (Nat.lt_of_lt_of_le old grows.size) ((grows.place scope old).trans place)
            (fun other member => declared other (List.mem_append_right _ member))
            (fun other member => ?_) (List.nodup_append.mp nodup).2.1 (Nat.succ.inj count)
            (AllValid.grows grows validRest)
            fun type same value member => conform type same value (by simp [member])).weaken
            fun last _ growsRest rest => first.cons rest growsRest
          -- The first name is another one, since the names of a declaration are distinct.
          rw [← Option.not_isSome_iff_eq_none, first.names]
          rintro (before | here)
          · rw [free other (List.mem_append_right _ member)] at before
            cases before
          · exact List.disjoint_of_nodup_append nodup here member

/-- Behind an initializer its declaration is initialized. -/
theorem Stage.declared {later : World} {position : Nat} {item : Initializer}
    (stage : Stage program world index package scope envs done) (grows : Grows (some scope) world later)
    (found : (initializers package)[position]? = some item)
    (initialized : Initialized world later scope item.decl.names) :
    Stage program later index package scope envs (position :: done) where
  grounded := stage.grounded.grows grows
  above := stage.above
  old := Nat.lt_of_lt_of_le stage.old grows.size
  place := by rw [grows.place scope stage.old, stage.place]
  files := stage.files.grows grows
  names name := by
    rw [initialized.names, stage.names]
    simp only [topNames, List.flatMap_cons, real_append, List.mem_append, namesAt_of_getElem? found]
    tauto
  values name slot known :=
    (initialized.values name slot known).elim (stage.values name slot) id
  functions position file found function member named :=
    let ⟨number, id, here, known⟩ := stage.functions position file found function member named
    ⟨number, id, here, grows.constant _ _ _ known⟩
  initialized other member name inside := by
    rcases List.mem_cons.mp member with rfl | before
    · rw [namesAt_of_getElem? found] at inside
      exact initialized.ready name inside
    · exact grows.ready _ _ (stage.initialized other before name inside)

/-- The names of a declaration that is not initialized are free. -/
theorem Stage.free (prepared : IsPrepared program index package indices)
    (stage : Stage program world index package scope envs done) {position : Nat} {item : Initializer}
    (found : (initializers package)[position]? = some item) (new : position ∉ done) :
    ∀ name ∈ real item.decl.names, world.slot scope name = none := by
  intro name member
  rw [← Option.not_isSome_iff_eq_none, stage.names]
  intro before
  obtain ⟨inside, named⟩ := mem_real.mp before
  rcases List.mem_append.mp inside with isFunction | isValue
  · obtain ⟨⟨_, literal⟩, function, rfl⟩ := List.mem_map.mp isFunction
    exact prepared.distinct.apart function found member
  · obtain ⟨other, isDone, here⟩ := List.mem_flatMap.mp isValue
    unfold namesAt at here
    cases found' : (initializers package)[other]? with
    | none =>
        rw [found'] at here
        exact absurd here List.not_mem_nil
    | some item' =>
        rw [found'] at here
        have one := prepared.distinct.lookup_value found member
        have two := prepared.distinct.lookup_value found' (mem_real.mpr ⟨here, named⟩)
        rw [one] at two
        obtain rfl : position = other := by simpa using two
        exact new isDone

theorem nodup_names (distinct : Distinct package indices) {position : Nat} {item : Initializer}
    (found : (initializers package)[position]? = some item) : (real item.decl.names).Nodup := by
  have nodup := distinct.names
  rw [topNames, real_append] at nodup
  have values := (List.nodup_append.mp nodup).2.1
  simp only [real, List.filter_flatMap] at values
  have inside := distinct.all position (List.getElem?_eq_some_iff.mp found).1
  have here := (List.nodup_flatMap.mp values).1 position inside
  rwa [namesAt_of_getElem? found] at here

theorem declared_names (prepared : IsPrepared program index package indices) {position : Nat}
    {item : Initializer} (found : (initializers package)[position]? = some item) :
    ∀ name ∈ real item.decl.names, (program index).Declares 1 name := by
  intro name member
  have inside := prepared.distinct.all position (List.getElem?_eq_some_iff.mp found).1
  obtain ⟨here, named⟩ := mem_real.mp member
  refine (prepared.names name).mpr (mem_real.mpr ⟨List.mem_append_right _ ?_, named⟩)
  refine List.mem_flatMap.mpr ⟨position, inside, ?_⟩
  rwa [namesAt_of_getElem? found]

/-- Initializers run in their order, and every one of them finds its names. -/
theorem Runs.runInitializers (prepared : IsPrepared program index package indices) {rest : List Nat}
    (stage : Stage program world index package scope envs done) (awake : Awake world package scope done)
    (sorted : Sorted package done rest) (judged : InitializersJudged (program index) package done rest) :
    Runs program session (some scope) world (Session.runInitializers package [scope, 0] envs
        (rest.filterMap ((initializers package)[·]?)))
      (fun later _ => ∃ finished, (∀ position, position ∈ done ∨ position ∈ rest → position ∈ finished) ∧
        Stage program later index package scope envs finished ∧ Awake later package scope finished) := by
  induction rest generalizing world done with
  | nil => exact .pure ⟨done, fun _ either => either.resolve_right List.not_mem_nil, stage, awake⟩
  | cons position rest ih =>
      obtain ⟨new, ⟨item, found, _⟩, sortedRest⟩ := sorted
      obtain ⟨judgedHere, judgedRest⟩ := judged
      obtain ⟨judgedValues, inhabited⟩ := judgedHere item found
      obtain ⟨file, fileFound, _⟩ := file_initializers found
      obtain ⟨id, here, fits⟩ := stage.fits prepared awake fileFound
      rw [List.filterMap_cons_some found]
      unfold Session.runInitializers
      refine .get fun machine => ?_
      dsimp only
      rw [here, Option.getD_some]
      have declares : Runs program session (some scope) world
          (Session.perform (.inFile (package.filePath item.file))
            (Eval.declare session.settings.maxCallDepth session.fuel [id, scope, 0] [scope, 0] item.decl))
          (fun later _ => Stage program later index package scope envs (position :: done)) := by
        refine .perform (fun _ => rfl) fun calls => ?_
        refine (sound program _ _).declare fits judgedValues inhabited
          fun later values grows count valid conform => ?_
        have stageLater := stage.grows grows
        exact (Keeps.bindInitial stageLater.old stageLater.place (declared_names prepared found)
          (stageLater.free prepared found new) (nodup_names prepared.distinct found) count valid
          conform).weaken fun last _ growsLast initialized =>
            stageLater.declared growsLast found initialized
      -- Behind the declaration, what has become ready through it is woken before the next one runs.
      refine declares.seq fun later _ _ stageLater => .later fun machine inv => ?_
      obtain ⟨woken, grows, invWoken, stageWoken, awakeWoken⟩ := stageLater.wake prepared inv
      refine ⟨woken, grows.widen _, invWoken, ?_⟩
      refine (ih stageWoken awakeWoken sortedRest judgedRest).weaken ?_
      rintro last _ growsLast ⟨finished, all, stageLast, awakeLast⟩
      refine ⟨finished, fun other either => all other ?_, stageLast, awakeLast⟩
      simp only [List.mem_cons] at either ⊢
      tauto

/-! ## Packages -/

theorem member_interfaceOf {table : SymbolTable} {package : Package} {scope : Nat} {name : String}
    (regular : Regular table) (shown : ((package.interfaceOf table scope).member? name).isSome) :
    (table.findIn? scope name).isSome := by
  obtain ⟨⟨other, member⟩, inside, same⟩ := List.lookup_isSome_iff.mp shown
  obtain ⟨symbol, known, made⟩ := List.mem_map.mp inside
  obtain ⟨rfl, rfl⟩ := Prod.mk.inj made
  obtain rfl : name = symbol.name := by simpa using same
  unfold SymbolTable.symbolsIn at known
  cases found : table.scopes[scope]? with
  | none =>
      rw [found] at known
      exact absurd known List.not_mem_nil
  | some entries =>
      rw [found] at known
      obtain ⟨⟨key, number⟩, entry, numbered⟩ := List.mem_filterMap.mp known
      obtain ⟨symbol', numbered', rfl⟩ := regular.keyed scope entries found _ entry
      obtain rfl : symbol' = symbol := Option.some.inj (numbered'.symm.trans numbered)
      rw [SymbolTable.findIn?, found, Option.bind_some, SymbolScope.find?, List.lookup_isSome_iff]
      exact ⟨_, entry, beq_self_eq_true _⟩

theorem Stage.hasValue (prepared : IsPrepared program index package indices)
    (stage : Stage program world index package scope envs done) (awake : Awake world package scope done)
    (all : ∀ position ∈ indices, position ∈ done) {name : String}
    (declared : (program index).Declares 1 name) : HasValue world scope name := by
  have member := (prepared.names name).mp declared
  have ready : Ready package done name := by
    refine ⟨(mem_real.mp member).2, lookup_of_mem_topNames member, fun needed leads => ?_⟩
    exact all needed (prepared.distinct.all needed (leads_lt leads))
  obtain ⟨slot, known⟩ := Option.isSome_iff_exists.mp ((stage.names name).mpr ready.mem_topNames)
  obtain ⟨kind, mutable, rfl⟩ := stage.values name slot known
  exact ⟨awake name ready, kind, mutable, known⟩

theorem FilesFit.length_le {facts : Facts} {files : List SourceFile}
    (fits : FilesFit facts world index scope 0 files envs) : files.length ≤ envs.length := by
  by_contra less
  obtain ⟨_, here, _⟩ := fits envs.length _ (List.getElem?_eq_getElem (Nat.lt_of_not_le less))
  simp at here

theorem map_placed {files : List SourceFile} (length : files.length ≤ envs.length) :
    (placed (files.zip envs)).map (·.1) = files.flatMap (·.program.functions) := by
  have same : (files.zip envs).map (·.1) = files := List.map_fst_zip length
  conv => rhs; rw [← same]
  simp only [placed, List.map_flatMap, List.flatMap_map, List.map_map]
  congr 1
  funext pair
  exact List.map_id _

theorem names_placed (files : FilesFit (program index) world index scope 0 package.files envs) :
    (placed (package.files.zip envs)).map (·.1.1) = (functionsOf package).map (·.1) := by
  rw [functionsOf, ← map_placed files.length_le, List.map_map]
  rfl

/-- The stage at which no code of the package has run. -/
theorem stage_start (grounded : Grounded world) (above : 0 < scope) (old : scope < world.size)
    (place : world.place scope = .inside index 1)
    (files : FilesFit (program index) world index scope 0 package.files envs)
    (functions : FunctionsFit world scope (placed (package.files.zip envs))) :
    Stage program world index package scope envs [] where
  grounded := grounded
  above := above
  old := old
  place := place
  files := files
  names name := by
    rw [functions.names, names_placed files, topNames, List.flatMap_nil, List.append_nil]
  values name slot known := ⟨_, _, functions.values name slot known⟩
  functions position file found function member named := by
    obtain ⟨id, here, _⟩ := files position file found
    have inside : (file, [id, scope, 0]) ∈ package.files.zip envs :=
      List.mem_of_getElem? (i := position) (List.getElem?_zip_eq_some.mpr ⟨found, here⟩)
    obtain ⟨number, known⟩ := functions.kept (function, id)
      (List.mem_flatMap.mpr ⟨_, inside, List.mem_map.mpr ⟨function, member, rfl⟩⟩) named
    exact ⟨number, id, here, known⟩
  initialized _ absurd := nomatch absurd

/-- The functions of all files are bound in the scope of the package, which had no names. -/
theorem Runs.bindAll (prepared : IsPrepared program index package indices)
    (place : world.place scope = .inside index 1) (old : scope < world.size)
    (empty : ∀ name, world.slot scope name = none)
    (files : FilesFit (program index) world index scope 0 package.files envs) :
    Runs program session (some scope) world (Session.bindFiles [scope, 0] (package.files.zip envs))
      (fun later _ => FunctionsFit later scope ([] ++ placed (package.files.zip envs))) := by
  have nodup := prepared.distinct.names
  rw [topNames, real_append] at nodup
  refine Runs.bindFiles place old ⟨_, prepared.layout.kind⟩ (fun pair member => ?_)
    (fun name member => ?_) ?_ (functionsFit_nil empty)
  · obtain ⟨position, found⟩ := List.getElem?_of_mem member
    obtain ⟨isFile, isEnv⟩ := List.getElem?_zip_eq_some.mp found
    obtain ⟨id, here, _⟩ := files position pair.1 isFile
    exact ⟨id, Option.some.inj (isEnv.symm.trans here)⟩
  · rw [names_placed files] at member
    refine (prepared.names name).mpr ?_
    rw [topNames, real_append]
    exact List.mem_append_left _ member
  · rw [names_placed files]
    exact (List.nodup_append.mp nodup).1

/-- The scopes of a checked package are opened and its names are bound, unless code of it stops. In the
end every name of it has a value. -/
theorem Runs.bindPackage (prepared : IsPrepared program index package indices)
    (grounded : Grounded world) (outermost : session.outermost = [0])
    (offer : AllOffer world (program index).imports session) :
    Runs program session none world (Session.bindPackage package)
      (fun later env => ∃ id, env = [id, 0] ∧ id < later.size ∧ later.place id = .inside index 1 ∧
        ∀ name, (program index).Declares 1 name → HasValue later id name) := by
  have layout := prepared.layout
  have outerFit : LayerFits (program index) world index ⟨0, .outer, fun _ => none⟩ 0 :=
    ⟨grounded.old, grounded.place, by rintro _ _ ⟨⟩, by rintro ⟨⟩⟩
  have outerFits : Fits program world index [⟨0, .outer, fun _ => none⟩] [0] :=
    ⟨.cons outerFit .nil, List.pairwise_singleton _ _⟩
  have enters : Enters (program index) [⟨0, .outer, fun _ => none⟩] 1 := ⟨Nat.one_ne_zero, layout.chain⟩
  unfold Session.bindPackage
  refine .get fun machine => ?_
  dsimp only
  rw [outermost]
  -- The scope of the package opens inside the outermost one, and gets its names from here on.
  have opens : Runs program session none world
      (Session.perform (fun error => error) (Eval.openScope [0])) _ :=
    .perform (fun _ => rfl) fun _ => Keeps.openScope outerFits enters
  refine opens.bind (by rintro _ _ ⟨⟩) fun opened env growsOpen both => ⟨some world.size, fun id old same => ?_, ?_⟩
  · exact absurd (Option.some.inj same) (Nat.ne_of_gt old)
  obtain ⟨rfl, fits⟩ := both
  cases fits.layers with
  | cons fit outerLayers =>
      have place : opened.place world.size = .inside index 1 := fit.place
      have packageFit : LayerFits (program index) opened index ⟨1, .outer, fun _ => none⟩ world.size :=
        ⟨fit.old, place, by rintro _ _ ⟨⟩, by rintro ⟨⟩⟩
      have packageFits : Fits program opened index packageContext [world.size, 0] :=
        ⟨.cons packageFit outerLayers, fits.order⟩
      have empty : ∀ name, opened.slot world.size name = none := by
        intro name
        cases known : opened.slot world.size name with
        | none => rfl
        | some slot => exact absurd (fit.own rfl name slot known) Bool.false_ne_true
      have opensFiles : Runs program session none opened
          (Session.openFiles [world.size, 0] package.files) _ :=
        Runs.openFiles layout (fun offset file found => by rwa [Nat.zero_add]) (offer.grows growsOpen)
          packageFits
      refine opensFiles.bind (by rintro _ _ ⟨⟩) fun filled envs growsFill files => ⟨some world.size, fun _ _ same => same, ?_⟩
      have growsBoth := growsOpen.trans growsFill
      have old := Nat.lt_of_lt_of_le fit.old growsFill.size
      have placeFilled : filled.place world.size = .inside index 1 := by
        rw [growsFill.place _ fit.old, place]
      -- The functions come first, so that code of any file finds them.
      have binds : Runs program session (some world.size) filled
          (Session.bindFiles [world.size, 0] (package.files.zip envs)) _ := Runs.bindAll prepared placeFilled old
        (fun name => by rw [growsFill.fixed _ fit.old (by rintro ⟨⟩), empty name]) files
      refine binds.seq fun bound _ growsBind functions => ?_
      have stage : Stage program bound index package world.size envs [] :=
        stage_start ((grounded.grows growsBoth).grows growsBind) grounded.old
          (Nat.lt_of_lt_of_le old growsBind.size) (by rw [growsBind.place _ old, placeFilled])
          (files.grows growsBind) functions
      rw [prepared.order]
      dsimp only
      -- What needs no initializer is ready from here on.
      refine .later fun machine inv => ?_
      obtain ⟨woken, grows, invWoken, stageWoken, awake⟩ := stage.wake prepared inv
      refine ⟨woken, grows.widen _, invWoken, ?_⟩
      refine (Runs.runInitializers prepared stageWoken awake prepared.sorted prepared.initializers).seq ?_
      rintro last _ _ ⟨finished, all, stageLast, awakeLast⟩
      exact .pure ⟨_, rfl, stageLast.old, stageLast.place, fun name declared =>
        stageLast.hasValue prepared awakeLast (fun position member => all position (Or.inr member)) declared⟩

end MiniGo.Running
