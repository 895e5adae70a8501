import MiniGo.Proofs.Lexical.Checks

/-!
# Checked names and declarations

The leaves of a walk over a tree: types, names that are read or assigned, and names that are declared.
-/

namespace MiniGo.Lexical

variable {imports : Interfaces} {ready : String → Prop} {table between after final : SymbolTable}

/-! ## Types -/

theorem inhabits_of_type {location : Location} {type : Ty} (known : Check.type location type = .ok ()) :
    Inhabits type := by
  cases type with
  | named name => exact nomatch known
  | _ => trivial

theorem inhabits_of_types {location : Location} {types : List Ty}
    (known : Check.types location types = .ok ()) : ∀ type ∈ types, Inhabits type := by
  induction types with
  | nil => exact nofun
  | cons first rest ih =>
      unfold Check.types at known
      cases here : Check.type location first with
      | error error => rw [here] at known; exact nomatch known
      | ok _ =>
          rw [here] at known
          intro type member
          rcases List.mem_cons.mp member with rfl | member
          · exact inhabits_of_type here
          · exact ih known type member

theorem signature_ok {signature : Signature} {location : Location} {outcome : Unit}
    (ran : Check.signature signature location table = .ok (outcome, after)) :
    after = table ∧ ∀ type ∈ signature.results, Inhabits type := by
  unfold Check.signature at ran
  cases params : Check.types location (signature.params.map (·.type)) with
  | error error => rw [params] at ran; exact nomatch ran
  | ok _ =>
      cases results : Check.types location signature.results with
      | error error => rw [params, results] at ran; exact nomatch ran
      | ok _ =>
          rw [params, results] at ran
          exact ⟨(congrArg Prod.snd (Except.ok.inj ran)).symm, inhabits_of_types results⟩

/-! ## Names -/

theorem resolve_ok {name : String} {location : Location} {symbol : Symbol}
    (ran : Check.resolve name location table = .ok (symbol, after)) :
    table.symbol? name = some symbol ∧ name ≠ blankName ∧ after = table.used name location := by
  unfold Check.resolve at ran
  split at ran
  · rename_i found known
    split at ran
    · exact nomatch ran
    · rename_i named
      obtain ⟨rfl, rfl⟩ : found = symbol ∧ table.used name location = after := by simpa using ran
      exact ⟨known, by simpa using named, rfl⟩
  · exact nomatch ran

theorem resolve_read {name : String} {location : Location} {symbol : Symbol} (regular : Regular table)
    (ran : Check.resolve name location table = .ok (symbol, after)) :
    HasRead imports ready (FreeNames.ofName · name)
      (fun facts context => Used facts context name location (meaningOf symbol.kind)) table after := by
  obtain ⟨found, named, rfl⟩ := resolve_ok ran
  exact ⟨continues_used regular name location, fun final bound later isLocal settled =>
    used_contextOf regular later found (clear_of_free named isLocal settled)⟩

theorem identifier_reads (name : String) (location : Location) :
    Reads imports ready (Check.identifier name location) (FreeNames.ofName · name)
      (fun facts context => Used facts context name location .value) := by
  intro table outcome after regular ran
  obtain ⟨symbol, between, ran, ran'⟩ := bind_ok ran
  have read : HasRead imports ready _ _ table between := resolve_read regular ran
  cases kind : symbol.kind with
  | package path => rw [kind] at ran'; exact nomatch ran'
  | _ =>
      rw [kind] at ran' read
      obtain ⟨_, rfl⟩ := pure_ok ran'
      exact read

theorem meaningOf_assignable {kind : SymbolKind} (assignable : kind.isAssignable = true) :
    meaningOf kind = .value := by
  cases kind with
  | package path => exact nomatch assignable
  | _ => rfl

theorem assignable_reads (name : String) (location : Location) :
    Reads imports ready (Check.assignable name location)
      (fun bound => if name == blankName then [] else FreeNames.ofName bound name)
      (fun facts context => Used facts context name location .value) := by
  intro table outcome after regular ran
  obtain ⟨symbol, between, ran, ran'⟩ := bind_ok ran
  have read : HasRead imports ready _ _ table between := resolve_read regular ran
  obtain ⟨assignable, rfl⟩ := require_ok ran'
  rw [meaningOf_assignable assignable] at read
  have named : (name == blankName) = false := by simpa using (resolve_ok ran).2.1
  simp only [named, Bool.false_eq_true, if_false]
  exact read

theorem assignables_reads (location : Location) (targets : List String) :
    Reads imports ready (Check.assignables location targets)
      (fun bound => (targets.filter (· != blankName)).flatMap (FreeNames.ofName bound))
      (fun facts context => Assigned facts context location targets) := by
  induction targets with
  | nil => exact (steady_pure _).reads.imp fun _ _ _ => nofun
  | cons name names ih =>
      by_cases named : name = blankName
      · have skip : (name == blankName) = true := by simpa using named
        have drop : (name != blankName) = false := by simpa using named
        simp only [Check.assignables, skip, if_true, List.filter_cons, drop]
        refine ((steady_pure ()).reads.seq ih).imp fun facts context ⟨_, rest⟩ other member real => ?_
        rcases List.mem_cons.mp member with rfl | member
        · exact absurd named real
        · exact rest other member real
      · have skip : (name == blankName) = false := by simpa using named
        have keep : (name != blankName) = true := by simpa using named
        simp only [Check.assignables, skip, Bool.false_eq_true, if_false, List.filter_cons, keep, if_true,
          List.flatMap_cons]
        have here := @assignable_reads imports ready name location
        simp only [skip, Bool.false_eq_true, if_false] at here
        refine (here.seq ih).imp fun facts context ⟨first, rest⟩ other member real => ?_
        rcases List.mem_cons.mp member with rfl | member
        · exact first
        · exact rest other member real

theorem qualified_reads (package name : String) (location : Location) :
    Reads imports ready (Check.qualified imports package name location) (fun _ => [])
      (fun facts context => isExported name = true ∧
        ∃ path, Used facts context package location (.package path) ∧ facts.Shows path name) := by
  intro table outcome after regular ran
  obtain ⟨_, _, got, walked⟩ := bind_ok ran
  obtain ⟨rfl, rfl⟩ := get_ok got
  rename_i here
  cases found : here.symbol? package with
  | none => rw [found] at walked; exact nomatch walked
  | some symbol =>
      obtain ⟨symbolName, kind, type?⟩ := symbol
      rw [found] at walked
      cases kind with
      | package path =>
          obtain ⟨_, _, marked, walked⟩ := bind_ok walked
          obtain rfl := modify_ok marked
          obtain ⟨_, _, spelled, walked⟩ := bind_ok walked
          obtain ⟨exported, rfl⟩ := require_ok spelled
          obtain ⟨shown, rfl⟩ := require_ok walked
          refine ⟨continues_used regular package location, fun final bound later isLocal settled =>
            ⟨exported, path, ?_, shown⟩⟩
          exact used_contextOf regular later found (clear_of_import regular found rfl)
      | _ => exact nomatch walked

/-! ## Declarations -/

/-- Declares symbols in the open scope. -/
def declareAll (location : Location) : List Symbol → Check Unit
  | [] => pure ()
  | symbol :: rest => do
      Check.declare symbol location
      declareAll location rest

theorem declareAll_append (location : Location) (first second : List Symbol) :
    (do declareAll location first; declareAll location second) = declareAll location (first ++ second) := by
  induction first with
  | nil => exact pure_bind _ _
  | cons symbol first ih => rw [List.cons_append, declareAll, declareAll, bind_assoc, ih]

theorem declareParameters_eq (location : Location) (params : List Parameter) :
    Check.declareParameters location params
      = declareAll location (params.map fun param => ⟨param.name, .parameter, some param.type⟩) := by
  induction params with
  | nil => rfl
  | cons param params ih => simp only [Check.declareParameters, ih, List.map_cons, declareAll]

theorem declareResults_eq (location : Location) (names : List String) (types : List Ty) :
    Check.declareResults location names types
      = declareAll location ((names.zip types).map fun (name, type) => ⟨name, .var, some type⟩) := by
  induction names generalizing types with
  | nil => rfl
  | cons name names ih =>
      cases types with
      | nil => rfl
      | cons type types => simp only [Check.declareResults, ih, List.zip_cons_cons, List.map_cons, declareAll]

/-- Values declared in the open scope. -/
theorem declareValues_eq (kind : SymbolKind) (location : Location) (names : List String)
    (types : List (Option Ty)) :
    Check.declareValues table.current kind location names types table
      = declareAll location ((names.zip types).map fun (name, type?) => ⟨name, kind, type?⟩) table := by
  induction names generalizing types table with
  | nil => rfl
  | cons name names ih =>
      cases types with
      | nil => rfl
      | cons type? types =>
          simp only [Check.declareValues, List.zip_cons_cons, List.map_cons, declareAll, Check.declare,
            Check.declareIn, SymbolTable.declare, bind, StateT.bind, Except.bind, pure, Except.pure]
          cases declared : table.declareIn table.current ⟨name, kind, type?⟩ location with
          | error error => rfl
          | ok both =>
              have current : both.2.current = table.current := by
                unfold SymbolTable.declareIn at declared
                split at declared
                · exact nomatch declared
                · obtain rfl := Except.ok.inj declared
                  rfl
              have rest := @ih both.2 types
              rw [current] at rest
              exact rest

theorem declare_ok {symbol : Symbol} {location : Location} {outcome : Unit}
    (ran : Check.declare symbol location table = .ok (outcome, after)) :
    ∃ number, table.declare symbol location = .ok (number, after) := by
  unfold Check.declare at ran
  cases declared : table.declare symbol location with
  | error error => rw [declared] at ran; exact nomatch ran
  | ok both =>
      rw [declared] at ran
      obtain rfl : both.2 = after := congrArg Prod.snd (Except.ok.inj ran)
      exact ⟨both.1, rfl⟩

theorem declare_declares (symbol : Symbol) (location : Location)
    (isValue : meaningOf symbol.kind = .value) :
    Declares imports ready (Check.declare symbol location) [symbol.name] (fun _ => [])
      (fun facts context => Gets facts context symbol.name) := by
  intro table outcome after regular inner ran
  obtain ⟨number, declared⟩ := declare_ok ran
  obtain ⟨continues, context, new⟩ := @contextOf_declare _ _ ready _ _ _ regular inner isValue declared
  have has : symbol.name ≠ blankName → (after.findIn? after.current symbol.name).isSome := by
    rw [continues.current]
    exact fun named => (new named).2
  refine ⟨continues, context, fun bound isLocal => ?_, fun final bound later _ _ => ?_⟩
  · exact (isLocal.continues regular continues).cons continues.regular (inner.continues regular continues)
      has
  · by_cases named : symbol.name = blankName
    · exact Or.inl named
    · obtain ⟨outer, _, _, context⟩ := @contextOf_cons _ ready regular inner
      refine Or.inr ⟨(new named).1, ?_⟩
      rw [context]
      refine ⟨_, rfl, ?_⟩
      obtain ⟨found, known⟩ := Option.isSome_iff_exists.mp (new named).2
      rw [Facts.Declares, later.names _ _ _ known]
      rfl

theorem declareAll_declares (location : Location) (symbols : List Symbol)
    (areValues : ∀ symbol ∈ symbols, meaningOf symbol.kind = .value) :
    Declares imports ready (declareAll location symbols) (symbols.map (·.name)) (fun _ => [])
      (fun facts context => GetsAll facts context (symbols.map (·.name))) := by
  induction symbols with
  | nil => exact (steady_pure ()).reads.declares
  | cons symbol rest ih =>
      exact (declare_declares symbol location (areValues symbol (by simp))).seq
        (ih fun other member => areValues other (by simp [member]))

theorem names_zip {γ : Type} {names : List String} {items : List γ} (make : String × γ → Symbol)
    (named : ∀ pair, (make pair).name = pair.1) (same : items.length = names.length) :
    ((names.zip items).map make).map (·.name) = names := by
  rw [List.map_map, show (fun symbol : Symbol => symbol.name) ∘ make = Prod.fst from funext named]
  exact List.map_fst_zip (Nat.le_of_eq same.symm)

/-- A name of a short declaration that the block has is a variable that is used. -/
theorem reuse_declared {name : String} {location : Location} {number : Nat} {symbol : Symbol}
    (regular : Regular table) (inner : Open table) (found : table.lookupCurrent? name = some number)
    (known : table.symbols[number]? = some symbol) (assignable : symbol.kind.isAssignable = true) :
    HasDeclared imports ready [name] (fun _ => [])
      (fun facts context => context.here name = some .value ∧ Used facts context name location .value)
      table (table.used name location) := by
  have isValue := meaningOf_assignable assignable
  have continues := continues_used regular name location
  have here : (contextOf table ready).here name = some .value := by
    obtain ⟨outer, _, _, context⟩ := @contextOf_cons _ ready regular inner
    rw [context, ← isValue]
    refine view_eq_of_findIn? found known ?_
    rintro ⟨package, isPackage⟩
    rw [Open, isOuterIn, isPackage] at inner
    cases inner
  refine ⟨continues.widen _, ?_, fun bound isLocal => ?_, fun final bound later _ _ => ⟨here, ?_⟩⟩
  · rw [contextOf_continues regular continues]
    exact (add_of_here here).symm
  · refine (isLocal.continues regular continues).cons continues.regular (inner.continues regular continues)
      fun _ => ?_
    change (table.lookupCurrent? name).isSome
    rw [found]
    rfl
  · have symbol? : table.symbol? name = some symbol := by
      rw [SymbolTable.symbol?, SymbolTable.lookup?_eq_lookupCurrent? found]
      exact known
    rw [← isValue]
    exact used_contextOf regular later symbol? (clear_of_current regular inner found known)

theorem defineValues_declares (location : Location) (names : List String) (types : List (Option Ty))
    (same : types.length = names.length) :
    Declares imports ready (Check.defineValues location names types) names (fun _ => [])
      (fun facts context => Defines facts location context names) := by
  induction names generalizing types with
  | nil => exact ((steady_pure false).reads.declares).imp fun _ _ _ => trivial
  | cons name names ih =>
      cases types with
      | nil => exact nomatch same
      | cons type? types =>
          have rest := ih types (Nat.succ.inj same)
          -- What the first name does and what the rest does are put together in the same way.
          have join : ∀ {table between after outcome}, Regular table → Open table →
              HasDeclared imports ready [name] (fun _ => []) (fun facts context => Gets facts context name ∨
                (context.here name = some .value ∧ Used facts context name location .value)) table between →
              Check.defineValues location names types between = .ok (outcome, after) →
              HasDeclared imports ready (name :: names) (fun _ => [])
                (fun facts context => Defines facts location context (name :: names)) table after :=
            fun regular inner first ran => first.trans regular inner
              (rest _ _ _ first.continues.regular (inner.continues regular first.continues) ran)
          intro table outcome after regular inner ran
          unfold Check.defineValues at ran
          split at ran
          · rename_i blank
            obtain rfl : name = blankName := by simpa using blank
            refine join regular inner ⟨.refl _ regular, (add_blank _).symm, fun bound isLocal => ?_,
              fun _ _ _ _ _ => Or.inl (Or.inl rfl)⟩ ran
            exact isLocal.cons regular inner fun named => absurd rfl named
          · obtain ⟨_, _, got, walked⟩ := bind_ok ran
            obtain ⟨rfl, rfl⟩ := get_ok got
            rename_i table
            cases found : (table.lookupCurrent? name).bind (table.symbols[·]?) with
            | some symbol =>
                rw [found] at walked
                obtain ⟨number, has, known⟩ := Option.bind_eq_some_iff.mp found
                obtain ⟨_, _, marked, walked⟩ := bind_ok walked
                obtain rfl := modify_ok marked
                obtain ⟨_, _, allowed, walked⟩ := bind_ok walked
                obtain ⟨assignable, rfl⟩ := require_ok allowed
                have first := @reuse_declared imports ready _ _ location _ _ regular inner has known assignable
                exact join regular inner (first.weaken (fun _ _ member => member) fun _ _ => Or.inr) walked
            | none =>
                rw [found] at walked
                obtain ⟨_, between, declared, walked⟩ := bind_ok walked
                obtain ⟨_, _, walked, last⟩ := bind_ok walked
                obtain ⟨_, rfl⟩ := pure_ok last
                have first := @declare_declares imports ready ⟨name, .var, type?⟩ location rfl _ _ _ regular
                  inner declared
                exact join regular inner (first.weaken (fun _ _ member => member) fun _ _ => Or.inl) walked

end MiniGo.Lexical
