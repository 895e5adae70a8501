import MiniGo.Proofs.Lexical.Carries

/-!
# Names that are looked up

A check keeps in mind which names it looked up and in which scope each was found. Of the names that are found outside
of all blocks around the code, in a scope that is no file's, these are exactly the free names of the code that the
scope is the first to have (`Looked`). The two walks over the code agree on every declaration between a name and the
outside: `Covers` says that the names that are bound for the one are those that the blocks have for the other.

* `Looks`: the code declares nothing around it.
* `LooksIn`: the code stands in a block and declares names there.
-/

namespace MiniGo.Lexical

open Syntax (Formed.expr Formed.exprs Formed.optionalExpr Formed.function Formed.valueDecl Formed.ifStmt
  Formed.elseBranch Formed.caseLabel Formed.cases Formed.stmt Formed.stmts Formed.header)

variable {α β : Type} {imports : Interfaces} {table before between after : SymbolTable} {blocks : List Frame}
  {block outer : Frame} {bound names names' first second : List String} {free free' : List String → List String}
  {count scope : Nat} {shown : String → Prop} {name : String}

/-- A name was looked up and found in a scope. -/
def Found (table : SymbolTable) (scope : Nat) (name : String) : Prop :=
  ∃ use, table.uses use ∧ use.name = name ∧ use.scopes[use.depth]? = some scope

/-- The first of some scopes that has a name. -/
def firstOf (table : SymbolTable) (ids : List Nat) (name : String) : Option Nat :=
  ids.find? fun id => (table.findIn? id name).isSome

/-- Outside of the innermost scopes, as many as blocks are around the code, a scope that is no file's is the first to
have the names that are `shown`. -/
structure Faces (table : SymbolTable) (count scope : Nat) (shown : String → Prop) : Prop where
  old : scope < table.scopes.size
  plain : ∀ file, kindIn? table scope ≠ some (.file file)
  apart : scope ∉ (table.chain table.current).take count
  shows : ∀ name, firstOf table ((table.chain table.current).drop count) name = some scope ↔ shown name

/-- From one table to another, the names that were looked up and found in a scope are the free names that it shows;
outside, no free name means a package. -/
structure Looked (scope : Nat) (shown : String → Prop) (outer : Frame) (free : List String)
    (before after : SymbolTable) : Prop where
  found : ∀ name, Found after scope name ↔ Found before scope name ∨ (name ∈ free ∧ shown name)
  plain : ∀ name ∈ free, ∃ symbol, outer name = some symbol ∧ meaningOf symbol.kind = .value

/-- A check that passes looks up the free names of code that declares nothing around it. -/
def Looks (free : List String → List String) (check : Check α) : Prop :=
  ∀ table blocks outer bound scope shown outcome after, Stands table blocks outer → Covers blocks bound →
    Faces table blocks.length scope shown → check table = .ok (outcome, after) →
    Continues none table after ∧ Looked scope shown outer (free bound) table after

/-- A check that passes looks up the free names of code that declares names in the open block. -/
def LooksIn (names : List String) (free : List String → List String) (check : Check α) : Prop :=
  ∀ table block blocks outer bound scope shown outcome after, Stands table (block :: blocks) outer →
    Covers (block :: blocks) bound → Faces table (blocks.length + 1) scope shown →
    check table = .ok (outcome, after) →
    (∃ block', Continues (some table.current) table after ∧ Stands after (block' :: blocks) outer ∧
      Covers (block' :: blocks) (names ++ bound)) ∧ Looked scope shown outer (free bound) table after

/-! ## Scopes outside of blocks -/

theorem firstOf_congr {ids : List Nat} (same : ∀ id ∈ ids, after.findIn? id name = before.findIn? id name) :
    firstOf after ids name = firstOf before ids name := by
  induction ids with
  | nil => rfl
  | cons id ids ih =>
      obtain ⟨here, rest⟩ := List.forall_mem_cons.mp same
      rw [firstOf, List.find?_cons, here, firstOf, List.find?_cons]
      cases (before.findIn? id name).isSome with
      | true => rfl
      | false => exact ih rest

/-- Scopes outside of the blocks get no names. -/
theorem Faces.adds {top : Option Nat} (faces : Faces before count scope shown) (regular : Regular before)
    (continues : Continues top before after)
    (apart : ∀ id ∈ (before.chain before.current).drop count, top ≠ some id) : Faces after count scope shown where
  old := Nat.lt_of_lt_of_le faces.old continues.scopes
  plain file := by
    rw [kindIn?_extends continues.toExtends faces.old]
    exact faces.plain file
  apart := by
    rw [continues.current, continues.toExtends.chain regular.current]
    exact faces.apart
  shows name := by
    rw [continues.current, continues.toExtends.chain regular.current, ← faces.shows name, firstOf_congr]
    intro id member
    exact continues.fixed id (regular.chain_lt regular.current id (List.mem_of_mem_drop member)) (apart id member) name

theorem Faces.continues (faces : Faces before count scope shown) (regular : Regular before)
    (continues : Continues none before after) : Faces after count scope shown :=
  faces.adds regular continues nofun

theorem Faces.declares (faces : Faces before (count + 1) scope shown) (regular : Regular before)
    (continues : Continues (some before.current) before after) : Faces after (count + 1) scope shown := by
  refine faces.adds regular continues fun id member same => ?_
  obtain ⟨rest, chain, less⟩ := chain_current regular
  rw [chain, List.drop_succ_cons] at member
  exact absurd (Option.some.inj same) (Nat.ne_of_gt (less id (List.mem_of_mem_drop member)))

theorem Faces.enter (faces : Faces table count scope shown) (kind : BlockKind) :
    Faces (table.enter kind) (count + 1) scope shown where
  old := Nat.lt_of_lt_of_le faces.old (extends_enter kind).scopes
  plain file := by
    rw [kindIn?_enter_of_lt kind faces.old]
    exact faces.plain file
  apart := by
    rw [chain_enter, List.take_succ_cons, List.mem_cons, not_or]
    exact ⟨Nat.ne_of_lt faces.old, faces.apart⟩
  shows name := by
    have same (ids : List Nat) : firstOf (table.enter kind) ids name = firstOf table ids name :=
      firstOf_congr fun id _ => findIn?_enter kind id name
    rw [chain_enter, List.drop_succ_cons, same]
    exact faces.shows name

theorem Faces.ne_current (faces : Faces table (count + 1) scope shown) (regular : Regular table) :
    scope ≠ table.current := by
  rintro rfl
  obtain ⟨rest, chain, _⟩ := chain_current regular
  exact faces.apart (by simp [chain])

/-- A name is found outside exactly if no block has it and it is shown there. -/
theorem Faces.firstOf_chain (faces : Faces table blocks.length scope shown) (stands : Stands table blocks outer)
    (covers : Covers blocks bound) (named : name ≠ blankName) :
    firstOf table (table.chain table.current) name = some scope ↔ name ∉ bound ∧ shown name := by
  obtain ⟨rest, frames, _⟩ := stands.around
  have inner : ((table.chain table.current).take blocks.length).map (frame table) = blocks := by
    rw [List.map_take, frames, List.take_left]
  have has : name ∈ bound ↔ ∃ id ∈ (table.chain table.current).take blocks.length, (table.findIn? id name).isSome := by
    rw [covers name named]
    constructor
    · rintro ⟨block, member, has⟩
      rw [← inner] at member
      obtain ⟨id, inside, rfl⟩ := List.mem_map.mp member
      exact ⟨id, inside, by rwa [isSome_frame stands.regular] at has⟩
    · rintro ⟨id, inside, has⟩
      refine ⟨frame table id, ?_, by rwa [isSome_frame stands.regular]⟩
      rw [← inner]
      exact List.mem_map_of_mem inside
  -- The search goes through the blocks first and through what is outside of them after that.
  rw [← faces.shows name, firstOf, ← List.take_append_drop blocks.length (table.chain table.current),
    List.find?_append, List.take_append_drop]
  cases found : ((table.chain table.current).take blocks.length).find? fun id => (table.findIn? id name).isSome with
  | some id =>
      have here : (table.findIn? id name).isSome := by simpa using List.find?_some found
      have isBound : name ∈ bound := has.mpr ⟨id, List.mem_of_find?_eq_some found, here⟩
      refine iff_of_false (fun same => ?_) fun both => both.1 isBound
      obtain rfl : id = scope := by simpa using same
      exact faces.apart (List.mem_of_find?_eq_some found)
  | none =>
      have isFree : name ∉ bound := fun isBound => by
        obtain ⟨id, inside, here⟩ := has.mp isBound
        exact absurd here (List.find?_eq_none.mp found id inside)
      exact (and_iff_right isFree).symm

/-! ## Lookups -/

theorem Looked.quiet (same : after.uses = before.uses) : Looked scope shown outer [] before after where
  found name := by simp [Found, same]
  plain := nofun

theorem Looked.trans (one : Looked scope shown outer first before between)
    (two : Looked scope shown outer second between after) :
    Looked scope shown outer (first ++ second) before after where
  found name := by
    rw [two.found, one.found, List.mem_append]
    tauto
  plain name member := (List.mem_append.mp member).elim (one.plain name) (two.plain name)

theorem Looked.congr (looked : Looked scope shown outer first before after)
    (same : ∀ name, name ∈ first ↔ name ∈ second) : Looked scope shown outer second before after where
  found name := by rw [← same, looked.found]
  plain name member := looked.plain name ((same name).mpr member)

/-- Looking a name up that is no package: it is found in the first scope that has it. -/
theorem looked_used {symbol : Symbol} {location : Location} (stands : Stands table blocks outer)
    (covers : Covers blocks bound) (faces : Faces table blocks.length scope shown) (named : name ≠ blankName)
    (found : table.symbol? name = some symbol) (value : meaningOf symbol.kind = .value) :
    Looked scope shown outer (FreeNames.ofName bound name) table (table.used name location) where
  found other := by
    have depth : (table.chain table.current)[table.depthOf name]? = firstOf table (table.chain table.current) name :=
      List.find?_eq_getElem?_findIdx.symm
    have here : Found (table.used name location) scope other
        ↔ Found table scope other ∨ (other = name ∧ firstOf table (table.chain table.current) name = some scope) := by
      simp only [Found, SymbolTable.used, or_and_right, exists_or, exists_eq_left, depth, eq_comm]
    rw [here, faces.firstOf_chain stands covers named, mem_ofName]
    refine or_congr_right ⟨?_, ?_⟩
    · rintro ⟨rfl, isFree, isShown⟩
      exact ⟨⟨rfl, isFree⟩, isShown⟩
    · rintro ⟨⟨rfl, isFree⟩, isShown⟩
      exact ⟨rfl, isFree, isShown⟩
  plain other member := by
    obtain ⟨rfl, isFree⟩ := mem_ofName.mp member
    refine ⟨symbol, ?_, value⟩
    rw [stands.symbol?] at found
    cases inside : blocks.findSome? (· other) with
    | none => simpa [inside] using found
    | some known =>
        obtain ⟨block, member, has⟩ := List.exists_of_findSome?_eq_some inside
        exact absurd ((covers other named).mpr ⟨block, member, by rw [has]; rfl⟩) isFree

/-! ## Putting checks together -/

theorem Looks.congr {check : Check α} (looks : Looks free check)
    (same : ∀ bound name, name ∈ free bound ↔ name ∈ free' bound) : Looks free' check := by
  intro table blocks outer bound scope shown outcome after stands covers faces ran
  obtain ⟨continues, looked⟩ := looks _ _ _ _ _ _ _ _ stands covers faces ran
  exact ⟨continues, looked.congr (same bound)⟩

theorem LooksIn.congr {check : Check α} (looks : LooksIn names free check)
    (same : ∀ bound name, name ∈ free bound ↔ name ∈ free' bound) : LooksIn names free' check := by
  intro table block blocks outer bound scope shown outcome after stands covers faces ran
  obtain ⟨brings, looked⟩ := looks _ _ _ _ _ _ _ _ _ stands covers faces ran
  exact ⟨brings, looked.congr (same bound)⟩

theorem Looks.bind {one : Check α} {two : α → Check β} (first : Looks free one)
    (second : ∀ value, Looks free' (two value)) : Looks (fun bound => free bound ++ free' bound) (one >>= two) := by
  intro table blocks outer bound scope shown outcome after stands covers faces ran
  obtain ⟨value, between, ran, ran'⟩ := bind_ok ran
  obtain ⟨continues, looked⟩ := first _ _ _ _ _ _ _ _ stands covers faces ran
  obtain ⟨continues', looked'⟩ := second value _ _ _ _ _ _ _ _ (stands.continues continues) covers
    (faces.continues stands.regular continues) ran'
  exact ⟨continues.trans continues', looked.trans looked'⟩

theorem Looks.seq {one : Check α} {two : Check β} (first : Looks free one) (second : Looks free' two) :
    Looks (fun bound => free bound ++ free' bound) (one >>= fun _ => two) :=
  first.bind fun _ => second

theorem Looks.followed {one : Check α} {two : α → Check β} (first : Looks free one)
    (second : ∀ value, Looks (fun _ => []) (two value)) : Looks free (one >>= two) :=
  (first.bind second).congr (by simp)

theorem LooksIn.seq {one : Check α} {two : Check β} (first : LooksIn names free one)
    (second : LooksIn names' free' two) :
    LooksIn (names ++ names') (fun bound => free bound ++ free' (names ++ bound)) (one >>= fun _ => two) := by
  intro table block blocks outer bound scope shown outcome after stands covers faces ran
  obtain ⟨value, between, ran, ran'⟩ := bind_ok ran
  obtain ⟨⟨_, continues, stood, covered⟩, looked⟩ := first _ _ _ _ _ _ _ _ _ stands covers faces ran
  obtain ⟨⟨block', continues', stood', covered'⟩, looked'⟩ := second _ _ _ _ _ _ _ _ _ stood covered
    (faces.declares stands.regular continues) ran'
  refine ⟨⟨block', continues.trans (continues.current ▸ continues'), stood', covered'.congr fun name => ?_⟩,
    looked.trans looked'⟩
  simp only [List.mem_append]
  tauto

theorem Looks.inBlock {check : Check α} (looks : Looks free check) : LooksIn [] free check := by
  intro table block blocks outer bound scope shown outcome after stands covers faces ran
  obtain ⟨continues, looked⟩ := looks _ _ _ _ _ _ _ _ stands covers faces ran
  exact ⟨⟨block, continues.widen _, stands.continues continues, covers⟩, looked⟩

theorem LooksIn.inScope {kind : BlockKind} {check : Check α} (looks : LooksIn names free check)
    (inner : isOuter kind = false) : Looks free (Check.inScope kind check) := by
  intro table blocks outer bound scope shown outcome after stands covers faces ran
  obtain ⟨inside, checked, rfl⟩ := inScope_ok ran
  obtain ⟨⟨_, continues, _⟩, looked⟩ :=
    looks _ _ _ _ _ _ _ _ _ (stands.enter inner) covers.enter (faces.enter kind) checked
  refine ⟨continues_exit stands.regular continues fun id old same => ?_, looked.found, looked.plain⟩
  exact absurd (Option.some.inj same) (Nat.ne_of_gt old)

/-! ## Checks that look nothing up -/

theorem Steady.looks {check : Check α} (steady : Steady check) : Looks (fun _ => []) check := by
  intro table blocks outer bound scope shown outcome after stands covers faces ran
  obtain ⟨counts, rfl⟩ := steady _ _ _ ran
  exact ⟨continues_counts stands.regular counts, .quiet rfl⟩

theorem steady_signature (signature : Signature) (location : Location) : Steady (Check.signature signature location) :=
  steady_of_same fun _ _ _ ran => (signature_ok ran).1

/-- A check that stays in its scope and finds names in that scope only. -/
def Inward (check : Check α) : Prop :=
  ∀ table outcome after, check table = .ok (outcome, after) → after.current = table.current ∧
    ∀ scope ≠ table.current, ∀ name, Found after scope name ↔ Found table scope name

theorem Inward.bind {one : Check α} {two : α → Check β} (first : Inward one) (second : ∀ value, Inward (two value)) :
    Inward (one >>= two) := by
  intro table outcome after ran
  obtain ⟨value, between, ran, ran'⟩ := bind_ok ran
  obtain ⟨current, same⟩ := first _ _ _ ran
  obtain ⟨current', same'⟩ := second value _ _ _ ran'
  refine ⟨current'.trans current, fun scope apart name => ?_⟩
  rw [same' scope (current ▸ apart), same scope apart]

theorem Steady.inward {check : Check α} (steady : Steady check) : Inward check := by
  intro table outcome after ran
  obtain ⟨counts, rfl⟩ := steady _ _ _ ran
  exact ⟨rfl, fun _ _ _ => Iff.rfl⟩

theorem inward_declareIn (id : Nat) (symbol : Symbol) (location : Location) :
    Inward (Check.declareIn id symbol location) := by
  intro table outcome after ran
  unfold Check.declareIn SymbolTable.declareIn at ran
  split at ran
  · exact nomatch ran
  · obtain rfl : table.insert id symbol = after := congrArg Prod.snd (Except.ok.inj ran)
    exact ⟨rfl, fun _ _ _ => Iff.rfl⟩

theorem inward_declare (symbol : Symbol) (location : Location) : Inward (Check.declare symbol location) :=
  fun table => inward_declareIn table.current symbol location table

theorem inward_declareValues (id : Nat) (kind : SymbolKind) (location : Location) (names : List String)
    (types : List (Option Ty)) : Inward (Check.declareValues id kind location names types) := by
  induction names generalizing types with
  | nil => exact (steady_pure ()).inward
  | cons name names ih =>
      cases types with
      | nil => exact (steady_pure ()).inward
      | cons type? types => exact (inward_declareIn id ⟨name, kind, type?⟩ location).bind fun _ => ih types

theorem inward_declareAll (location : Location) (symbols : List Symbol) : Inward (declareAll location symbols) := by
  induction symbols with
  | nil => exact (steady_pure ()).inward
  | cons symbol rest ih => exact (inward_declare symbol location).bind fun _ => ih

/-- A name that the open scope has is found there. -/
theorem used_inward {location : Location} (has : (table.lookupCurrent? name).isSome) (apart : scope ≠ table.current)
    (other : String) : Found (table.used name location) scope other ↔ Found table scope other := by
  obtain ⟨rest, chain⟩ : ∃ rest, table.chain table.current = table.current :: rest := by
    unfold SymbolTable.chain
    split <;> exact ⟨_, rfl⟩
  have first : table.depthOf name = 0 := by
    rw [SymbolTable.depthOf, chain, List.findIdx_cons]
    unfold SymbolTable.lookupCurrent? at has
    simp [has]
  constructor
  · rintro ⟨use, used | rfl, rest⟩
    · exact ⟨use, used, rest⟩
    · simp only [first, chain, List.getElem?_cons_zero, Option.some.injEq] at rest
      exact absurd rest.2.symm apart
  · rintro ⟨use, used, rest⟩
    exact ⟨use, Or.inl used, rest⟩

theorem inward_defineValues (location : Location) (names : List String) (types : List (Option Ty)) :
    Inward (Check.defineValues location names types) := by
  induction names generalizing types with
  | nil => exact (steady_pure false).inward
  | cons name names ih =>
      cases types with
      | nil => exact (steady_pure false).inward
      | cons type? types =>
          unfold Check.defineValues
          split
          · exact ih types
          intro table outcome after ran
          obtain ⟨_, _, got, walked⟩ := bind_ok ran
          obtain ⟨rfl, rfl⟩ := get_ok got
          rename_i table
          cases known : (table.lookupCurrent? name).bind (table.symbols[·]?) with
          -- A name that the open scope has is looked up there; so nothing outside of it is marked.
          | some symbol =>
              rw [known] at walked
              obtain ⟨_, _, marked, walked⟩ := bind_ok walked
              obtain rfl := modify_ok marked
              have others := (steady_require symbol.kind.isAssignable (.notAssignable name location)).inward.bind
                fun _ => ih types
              obtain ⟨current, same⟩ := others _ _ _ walked
              have has : (table.lookupCurrent? name).isSome := by
                obtain ⟨number, found, _⟩ := Option.bind_eq_some_iff.mp known
                rw [found]
                rfl
              exact ⟨current, fun scope apart other => (same scope apart other).trans (used_inward has apart other)⟩
          | none =>
              rw [known] at walked
              exact ((inward_declare ⟨name, .var, type?⟩ location).bind fun _ =>
                (ih types).bind fun _ => (steady_pure true).inward) _ _ _ walked

theorem Brings.looksIn {named needs : List String → List String} {check : Check α}
    (brings : Brings names named needs check) (inward : Inward check) : LooksIn names (fun _ => []) check := by
  intro table block blocks outer bound scope shown outcome after stands covers faces ran
  obtain ⟨block', continues, stood, covered, _⟩ := brings _ _ _ _ _ _ _ stands covers ran
  refine ⟨⟨block', continues, stood, covered⟩, fun name => ?_, nofun⟩
  rw [(inward _ _ _ ran).2 scope (faces.ne_current stands.regular)]
  simp

/-! ## Names -/

theorem looks_identifier (name : String) (location : Location) :
    Looks (FreeNames.ofName · name) (Check.identifier name location) := by
  intro table blocks outer bound scope shown outcome after stands covers faces ran
  obtain ⟨symbol, between, resolved, ran⟩ := bind_ok ran
  obtain ⟨found, named, rfl⟩ := resolve_ok resolved
  have value : meaningOf symbol.kind = .value ∧ after = table.used name location := by
    cases kind : symbol.kind with
    | package path => rw [kind] at ran; exact nomatch ran
    | _ =>
        rw [kind] at ran
        exact ⟨rfl, (pure_ok ran).2⟩
  obtain ⟨value, rfl⟩ := value
  exact ⟨continues_used stands.regular name location, looked_used stands covers faces named found value⟩

theorem looks_assignable (name : String) (location : Location) :
    Looks (FreeNames.ofName · name) (Check.assignable name location) := by
  intro table blocks outer bound scope shown outcome after stands covers faces ran
  obtain ⟨symbol, between, resolved, ran⟩ := bind_ok ran
  obtain ⟨found, named, rfl⟩ := resolve_ok resolved
  obtain ⟨assignable, rfl⟩ := require_ok ran
  exact ⟨continues_used stands.regular name location,
    looked_used stands covers faces named found (meaningOf_assignable assignable)⟩

theorem looks_target (name : String) (location : Location) :
    Looks (fun bound => if name == blankName then [] else FreeNames.ofName bound name)
      (Check.assignable name location) := by
  by_cases blank : name = blankName
  · intro table blocks outer bound scope shown outcome after _ _ _ ran
    obtain ⟨_, _, resolved, _⟩ := bind_ok ran
    exact absurd blank (resolve_ok resolved).2.1
  · simpa [blank] using looks_assignable name location

theorem looks_assignables (location : Location) (targets : List String) :
    Looks (fun bound => (targets.filter (· != blankName)).flatMap (FreeNames.ofName bound))
      (Check.assignables location targets) := by
  induction targets with
  | nil => exact (steady_pure ()).looks
  | cons name names ih =>
      unfold Check.assignables
      by_cases blank : name = blankName
      · simpa [blank] using (steady_pure ()).looks.seq ih
      · simpa [blank] using (looks_assignable name location).seq ih

/-- A package is found in the scope of a file. -/
theorem looks_qualified (package name : String) (location : Location) :
    Looks (fun _ => []) (Check.qualified imports package name location) := by
  intro table blocks outer bound scope shown outcome after stands covers faces ran
  obtain ⟨_, _, got, walked⟩ := bind_ok ran
  obtain ⟨rfl, rfl⟩ := get_ok got
  rename_i table
  cases found : table.symbol? package with
  | none => rw [found] at walked; exact nomatch walked
  | some symbol =>
      obtain ⟨symbolName, kind, type?⟩ := symbol
      rw [found] at walked
      cases kind with
      | package path =>
          obtain ⟨_, _, marked, walked⟩ := bind_ok walked
          obtain rfl := modify_ok marked
          obtain ⟨_, _, spelled, walked⟩ := bind_ok walked
          obtain ⟨_, rfl⟩ := require_ok spelled
          obtain ⟨_, rfl⟩ := require_ok walked
          refine ⟨continues_used stands.regular package location, fun other => ?_, nofun⟩
          refine ⟨?_, fun before => ?_⟩
          · rintro ⟨use, used | rfl, rest⟩
            · exact Or.inl ⟨use, used, rest⟩
            · obtain ⟨number, first, known⟩ := Option.bind_eq_some_iff.mp found
              rw [SymbolTable.lookup?_eq_depthOf, rest.2, Option.bind_some] at first
              obtain ⟨file, isFile⟩ := stands.regular.imported scope package number _ path first known rfl
              exact absurd isFile (faces.plain file)
          · obtain ⟨use, used, rest⟩ := before.resolve_right fun both => nomatch both.1
            exact ⟨use, Or.inl used, rest⟩
      | _ => exact nomatch walked

/-! ## Declarations -/

theorem looks_decideTypes {decl : ValueDecl}
    (exprs : Looks (FreeNames.ofExprs · decl.values) (Check.expressions imports decl.values)) :
    Looks (FreeNames.ofExprs · decl.values) (decideTypes imports decl) := by
  have typed : Steady (givenType decl.location decl.type?) := by
    unfold givenType
    split
    · rename_i found _
      refine steady_of_same fun table outcome after ran => ?_
      cases known : Check.type decl.location found with
      | error error => rw [known] at ran; exact nomatch ran
      | ok _ =>
          rw [known] at ran
          exact (congrArg Prod.snd (Except.ok.inj ran)).symm
    · exact steady_pure ()
  have counted : Steady (givenValues imports decl.names decl.values decl.location) := by
    unfold givenValues
    split
    · exact steady_pure ()
    · exact steady_valueCount _ _ _
  have types : Steady fun table =>
      .ok (Check.declaredTypes imports table decl.names decl.type? decl.values, table) :=
    steady_of_same fun _ _ _ ran => (congrArg Prod.snd (Except.ok.inj ran)).symm
  exact (typed.looks.seq (exprs.seq (counted.looks.seq types.looks))).congr (by simp)

theorem looksIn_declaring {named needs : List String → List String} {check : Check β} {one : Check α}
    {two : SymbolTable → α → Check β} (brings : Brings names named needs check) (first : Looks free one)
    (second : ∀ table value, Inward (two table value)) (same : ∀ table, check table = (one >>= two table) table) :
    LooksIn names free check := by
  intro table block blocks outer bound scope shown outcome after stands covers faces ran
  obtain ⟨block', continues, stood, covered, _⟩ := brings _ _ _ _ _ _ _ stands covers ran
  refine ⟨⟨block', continues, stood, covered⟩, ?_⟩
  rw [same] at ran
  obtain ⟨value, between, ran, ran'⟩ := bind_ok ran
  obtain ⟨went, looked⟩ := first _ _ _ _ _ _ _ _ stands covers faces ran
  refine ⟨fun name => ?_, looked.plain⟩
  rw [← looked.found]
  exact (second table value _ _ _ ran').2 scope (went.current ▸ faces.ne_current stands.regular) name

theorem looksIn_valueDecl {decl : ValueDecl} (formed : Formed.exprs decl.values)
    (exprs : Looks (FreeNames.ofExprs · decl.values) (Check.expressions imports decl.values)) :
    LooksIn decl.names (FreeNames.ofExprs · decl.values)
      (get >>= fun table => Check.valueDecl imports table.current decl) :=
  looksIn_declaring (brings_valueDecl (expressions_carries decl.values formed)) (looks_decideTypes exprs)
    (fun table types => inward_declareValues table.current (kindOf decl) decl.location decl.names types)
    fun table => (bind_run rfl).trans (by rw [valueDecl_eq])

theorem looksIn_define {names : List String} {values : List Expr} {location : Location} {body : Check.Body}
    (some : values ≠ []) (formed : Formed.exprs values)
    (exprs : Looks (FreeNames.ofExprs · values) (Check.expressions imports values)) :
    LooksIn names (FreeNames.ofExprs · values) (Check.statement imports body (.define names values location)) := by
  have defines : ∀ types, Inward (defineNew location names types) := fun types =>
    (inward_defineValues location names types).bind fun _ => (steady_require _ _).inward
  refine looksIn_declaring (brings_define some (expressions_carries values formed))
    (@looks_decideTypes _ ⟨false, names, none, values, location⟩ exprs) (fun _ => defines) fun table => ?_
  rw [define_eq location body some]

/-- The body of a function, in a scope with the names of its signature. -/
theorem function_looks_body {name : String} {signature : Signature} {body : List Stmt} {location : Location}
    (formed : Syntax.Formed.signature signature)
    (stmts : LooksIn names (FreeNames.ofStmts · body) (Check.statements imports (.ofFunction name signature) body)) :
    Looks (FreeNames.ofFunction · ⟨signature, body, location⟩)
      (do
        Check.inScope (.function name) do
          Check.declareParameters location signature.params
          Check.declareResults location signature.resultNames signature.results
          Check.statements imports (.ofFunction name signature) body
        Check.require (signature.results.isEmpty || isTerminatingList body) (.missingReturn name location)) := by
  have heads := (brings_declareAll location (parameterSymbols signature) meaningOf_parameterSymbols).looksIn
    (inward_declareAll location _)
  rw [names_parameterSymbols formed] at heads
  rw [declareParameters_eq, declareResults_eq, ← bind_assoc, declareAll_append]
  refine ((heads.seq stmts).inScope rfl).followed (fun _ => (steady_require _ _).looks) |>.congr ?_
  simp [FreeNames.ofFunction]

/-! ## Trees -/

mutual

theorem expression_looks : (found : Expr) → Formed.expr found →
    Looks (FreeNames.ofExpr · found) (Check.expression imports found)
  | .integer _, _ | .float _, _ | .string _, _ => by
      unfold Check.expression
      exact (steady_pure ()).looks.congr (by simp [FreeNames.ofExpr])
  | .identifier name location, _ => by
      unfold Check.expression
      simpa only [FreeNames.ofExpr] using looks_identifier name location
  | .qualified package name location, _ => by
      unfold Check.expression
      exact (looks_qualified package name location).congr (by simp [FreeNames.ofExpr])
  | .binary left _ right _, formed => by
      rw [Formed.expr] at formed
      unfold Check.expression
      exact ((expression_looks left formed.1).seq ((steady_single left).looks.seq
        ((expression_looks right formed.2).seq (steady_single right).looks))).congr (by simp [FreeNames.ofExpr])
  | .unary _ operand _, formed => by
      rw [Formed.expr] at formed
      unfold Check.expression
      exact ((expression_looks operand formed).seq (steady_single operand).looks).congr (by simp [FreeNames.ofExpr])
  | .call callee args _, formed => by
      rw [Formed.expr] at formed
      unfold Check.expression
      exact ((expression_looks callee formed.1).seq ((steady_single callee).looks.seq
        (arguments_looks args formed.2))).congr (by simp [FreeNames.ofExpr])
  | .function literal, formed => by
      rw [Formed.expr] at formed
      unfold Check.expression
      simpa only [FreeNames.ofExpr] using function_looks literal Check.literalTitle true formed

theorem expressions_looks : (found : List Expr) → Formed.exprs found →
    Looks (FreeNames.ofExprs · found) (Check.expressions imports found)
  | [], _ => by
      unfold Check.expressions
      exact (steady_pure ()).looks.congr (by simp [FreeNames.ofExprs])
  | first :: rest, formed => by
      rw [Formed.exprs] at formed
      unfold Check.expressions
      exact ((expression_looks first formed.1).seq (expressions_looks rest formed.2)).congr
        (by simp [FreeNames.ofExprs])

theorem operands_looks : (found : List Expr) → Formed.exprs found →
    Looks (FreeNames.ofExprs · found) (Check.operands imports found)
  | [], _ => by
      unfold Check.operands
      exact (steady_pure ()).looks.congr (by simp [FreeNames.ofExprs])
  | first :: rest, formed => by
      rw [Formed.exprs] at formed
      unfold Check.operands
      exact ((expression_looks first formed.1).seq ((steady_single first).looks.seq
        (operands_looks rest formed.2))).congr (by simp [FreeNames.ofExprs])

theorem optionalOperand_looks : (found : Option Expr) → Formed.optionalExpr found →
    Looks (FreeNames.ofOptionalExpr · found) (Check.optionalOperand imports found)
  | none, _ => by
      unfold Check.optionalOperand
      exact (steady_pure ()).looks.congr (by simp [FreeNames.ofOptionalExpr])
  | some operand, formed => by
      rw [Formed.optionalExpr] at formed
      unfold Check.optionalOperand
      exact ((expression_looks operand formed).seq (steady_single operand).looks).congr
        (by simp [FreeNames.ofOptionalExpr])

theorem arguments_looks : (found : List Expr) → Formed.exprs found →
    Looks (FreeNames.ofExprs · found) (Check.arguments imports found)
  | [], _ => by
      unfold Check.arguments
      exact (steady_pure ()).looks.congr (by simp [FreeNames.ofExprs])
  | [arg], formed => by
      rw [Formed.exprs] at formed
      unfold Check.arguments
      have counted : Steady (if arg.isCall then do
            let found ← Check.count imports arg
            Check.require (found != some 0) (.noValue (arg.location?.getD Location.nowhere))
          else Check.single imports arg) := by
        split
        · exact (steady_count arg).bind fun _ => steady_require _ _
        · exact steady_single arg
      exact ((expression_looks arg formed.1).seq counted.looks).congr (by simp [FreeNames.ofExprs])
  | first :: second :: rest, formed => by
      rw [Formed.exprs, Formed.exprs] at formed
      unfold Check.arguments
      exact ((expression_looks first formed.1).seq ((steady_single first).looks.seq
        ((expression_looks second formed.2.1).seq ((steady_single second).looks.seq
          (operands_looks rest formed.2.2))))).congr (by simp [FreeNames.ofExprs])

theorem function_looks : (found : FunctionLiteral) → (name : String) → (isLiteral : Bool) → Formed.function found →
    Looks (FreeNames.ofFunction · found) (Check.function imports name isLiteral found)
  | ⟨signature, body, location⟩, name, isLiteral, formed => by
      rw [Formed.function] at formed
      have walked := @function_looks_body imports _ name signature body location formed.1
        (statements_looks (.ofFunction name signature) body formed.2)
      unfold Check.function
      cases isLiteral with
      | false => exact walked
      | true => exact ((steady_signature signature location).looks.seq walked).congr (by simp)

theorem statement_looks : (body : Check.Body) → (found : Stmt) → Formed.stmt found →
    LooksIn (declared found) (fun bound => (FreeNames.ofStmt bound found).2) (Check.statement imports body found)
  | _, .declare decl, formed => by
      obtain ⟨isConst, names, type?, values, location⟩ := decl
      rw [Formed.stmt, Formed.valueDecl] at formed
      unfold Check.statement
      simpa only [FreeNames.ofStmt, FreeNames.ofDecl, declared] using
        looksIn_valueDecl formed.2.2.1 (expressions_looks values formed.2.2.1)
  | body, .define names values location, formed => by
      rw [Formed.stmt] at formed
      simpa only [FreeNames.ofStmt, declared] using
        looksIn_define formed.2.1 formed.2.2 (expressions_looks values formed.2.2)
  | _, .assign targets values location, formed => by
      rw [Formed.stmt] at formed
      unfold Check.statement
      exact ((expressions_looks values formed.2.2).seq ((looks_assignables location targets).seq
        (steady_valueCount targets.length values location).looks)).inBlock.congr (by simp [FreeNames.ofStmt])
  | _, .compound target op value location, formed => by
      rw [Formed.stmt] at formed
      unfold Check.statement
      exact ((expression_looks value formed.2.2).seq ((looks_target target location).seq
        (steady_valueCount 1 [value] location).looks)).inBlock.congr (by simp [FreeNames.ofStmt])
  | _, .step target _ location, _ => by
      unfold Check.statement
      simpa only [FreeNames.ofStmt, declared] using (looks_assignable target location).inBlock
  | body, .ifElse found, formed => by
      rw [Formed.stmt] at formed
      unfold Check.statement
      simpa only [FreeNames.ofStmt, declared] using (conditional_looks body found formed).inBlock
  | body, .loop init condition post inner _, formed => by
      rw [Formed.stmt] at formed
      obtain ⟨first, tested, last, silent, rounds⟩ := formed
      unfold Check.statement
      have quiet := declaredBy_silent silent
      -- What ends a round declares nothing, so the body stands in the scope of the header.
      refine (((optionalStatement_looks body init first).seq
        ((optionalOperand_looks condition tested).inBlock.seq
          ((optionalStatement_looks body post last).seq
            ((statements_looks body.inside inner rounds).inScope rfl).inBlock))).inScope rfl).inBlock.congr ?_
      simp [FreeNames.ofStmt, bound_ofOptionalStmt, quiet]
  | body, .switch init tag found _, formed => by
      rw [Formed.stmt] at formed
      unfold Check.statement
      refine (((optionalStatement_looks body init formed.1).seq
        ((optionalOperand_looks tag formed.2.1).seq (cases_looks body found formed.2.2.1)).inBlock).inScope
          rfl).inBlock.congr ?_
      simp [FreeNames.ofStmt, bound_ofOptionalStmt]
  | body, .return values location, formed => by
      rw [Formed.stmt] at formed
      unfold Check.statement
      exact ((expressions_looks values formed).seq (steady_returnCount body values location).looks).inBlock.congr
        (by simp [FreeNames.ofStmt])
  | _, .break _, _ | _, .continue _, _ => by
      unfold Check.statement
      exact (steady_require _ _).looks.inBlock.congr (by simp [FreeNames.ofStmt])
  | body, .block inner, formed => by
      rw [Formed.stmt] at formed
      unfold Check.statement
      simpa only [FreeNames.ofStmt, declared] using ((statements_looks body inner formed).inScope rfl).inBlock
  | _, .expression found, formed => by
      rw [Formed.stmt] at formed
      unfold Check.statement
      simpa only [FreeNames.ofStmt, declared] using (expression_looks found formed).inBlock

theorem statements_looks : (body : Check.Body) → (found : List Stmt) → Formed.stmts found →
    LooksIn (found.flatMap declared) (FreeNames.ofStmts · found) (Check.statements imports body found)
  | _, [], _ => by
      unfold Check.statements
      exact (steady_pure ()).looks.inBlock.congr (by simp [FreeNames.ofStmts])
  | body, first :: rest, formed => by
      rw [Formed.stmts] at formed
      unfold Check.statements
      refine ((statement_looks body first formed.1).seq (statements_looks body rest formed.2.2)).congr ?_
      simp [FreeNames.ofStmts, bound_ofStmt]

theorem optionalStatement_looks : (body : Check.Body) → (found : Option Stmt) → Formed.header found →
    LooksIn (declaredBy found) (fun bound => (FreeNames.ofOptionalStmt bound found).2)
      (Check.optionalStatement imports body found)
  | _, none, _ => by
      unfold Check.optionalStatement
      exact (steady_pure ()).looks.inBlock.congr (by simp [FreeNames.ofOptionalStmt])
  | body, some found, formed => by
      rw [Formed.header] at formed
      unfold Check.optionalStatement
      simpa only [FreeNames.ofOptionalStmt, declaredBy] using statement_looks body found formed.1

theorem conditional_looks : (body : Check.Body) → (found : IfStmt) → Formed.ifStmt found →
    Looks (FreeNames.ofIf · found) (Check.conditional imports body found)
  | body, ⟨init, condition, inner, orElse, _⟩, formed => by
      rw [Formed.ifStmt] at formed
      obtain ⟨first, tested, taken, other⟩ := formed
      unfold Check.conditional
      refine ((optionalStatement_looks body init first).seq
        ((expression_looks condition tested).seq ((steady_single condition).looks.seq
          (((statements_looks body inner taken).inScope rfl).seq
            (elseBranch_looks body orElse other)))).inBlock).inScope rfl |>.congr ?_
      simp [FreeNames.ofIf, bound_ofOptionalStmt]

theorem elseBranch_looks : (body : Check.Body) → (found : ElseBranch) → Formed.elseBranch found →
    Looks (FreeNames.ofElse · found) (Check.elseBranch imports body found)
  | _, .absent, _ => by
      unfold Check.elseBranch
      exact (steady_pure ()).looks.congr (by simp [FreeNames.ofElse])
  | body, .block inner, formed => by
      rw [Formed.elseBranch] at formed
      unfold Check.elseBranch
      simpa only [FreeNames.ofElse] using (statements_looks body inner formed).inScope rfl
  | body, .chain next, formed => by
      rw [Formed.elseBranch] at formed
      unfold Check.elseBranch
      simpa only [FreeNames.ofElse] using conditional_looks body next formed

theorem caseLabel_looks : (found : CaseLabel) → Formed.caseLabel found →
    Looks (FreeNames.ofLabel · found) (Check.caseLabel imports found)
  | .values values, formed => by
      rw [Formed.caseLabel] at formed
      unfold Check.caseLabel
      simpa only [FreeNames.ofLabel] using operands_looks values formed.2
  | .otherwise, _ => by
      unfold Check.caseLabel
      exact (steady_pure ()).looks.congr (by simp [FreeNames.ofLabel])

theorem cases_looks : (body : Check.Body) → (found : List SwitchCase) → Formed.cases found →
    Looks (FreeNames.ofCases · found) (Check.cases imports body found)
  | _, [], _ => by
      unfold Check.cases
      exact (steady_pure ()).looks.congr (by simp [FreeNames.ofCases])
  | body, ⟨label, inner, _⟩ :: rest, formed => by
      rw [Formed.cases] at formed
      unfold Check.cases
      refine ((caseLabel_looks label formed.1).seq
        (((statements_looks body.insideCase inner formed.2.1).inScope rfl).seq
          (cases_looks body rest formed.2.2))).congr ?_
      simp [FreeNames.ofCases, FreeNames.ofCase]

end

end MiniGo.Lexical
