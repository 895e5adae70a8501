import MiniGo.Proofs.Lexical.Tables

/-!
# The context of a table

A table with an open scope stands for a context: one layer for each scope around, with the names that
the scope has so far. Of the names of a package only those that are `ready` count, because code of
the package can run before the rest of them are bound.
-/

namespace MiniGo.Lexical

def meaningOf : SymbolKind → Meaning
  | .package path => .package path
  | _ => .value

open Classical in
/-- What a name of a scope stands for; a name of a package has to be ready. -/
noncomputable def view (table : SymbolTable) (ready : String → Prop) (id : Nat) (name : String) :
    Option Meaning :=
  match (table.findIn? id name).bind (table.symbols[·]?) with
  | none => none
  | some symbol =>
      if (∃ package, kindIn? table id = some (.package package)) ∧ ¬ ready name then none
      else some (meaningOf symbol.kind)

/-- The layers of scopes, the innermost first; `passed` when a function is inside all of them. -/
noncomputable def layersOf (table : SymbolTable) (ready : String → Prop) : Bool → List Nat → Context
  | _, [] => []
  | passed, id :: rest =>
      let mode : Mode := if isOuterIn table id then .outer else if passed then .captured else .own
      ⟨id, mode, view table ready id⟩
        :: layersOf table ready (passed || (kindIn? table id).any isFunction) rest

noncomputable def contextOf (table : SymbolTable) (ready : String → Prop) : Context :=
  layersOf table ready false (table.chain table.current)

variable {table before after final : SymbolTable} {ready : String → Prop} {imports : Interfaces}

theorem view_eq_of_findIn? {id : Nat} {name : String} {number : Nat} {symbol : Symbol}
    (found : table.findIn? id name = some number) (known : table.symbols[number]? = some symbol)
    (awake : (∃ package, kindIn? table id = some (.package package)) → ready name) :
    view table ready id name = some (meaningOf symbol.kind) := by
  unfold view
  rw [found, Option.bind_some, known]
  have passes : ¬((∃ package, kindIn? table id = some (.package package)) ∧ ¬ ready name) :=
    fun both => both.2 (awake both.1)
  simp only [if_neg passes]

theorem view_none {id : Nat} {name : String} (free : table.findIn? id name = none) :
    view table ready id name = none := by
  unfold view
  rw [free]
  rfl

theorem view_eq_some {id : Nat} {name : String} {meaning : Meaning}
    (seen : view table ready id name = some meaning) :
    ∃ number symbol, table.findIn? id name = some number ∧ table.symbols[number]? = some symbol ∧
      meaning = meaningOf symbol.kind ∧ ((∃ package, kindIn? table id = some (.package package)) →
        ready name) := by
  unfold view at seen
  split at seen
  · exact nomatch seen
  · rename_i symbol found
    obtain ⟨number, here, known⟩ := Option.bind_eq_some_iff.mp found
    split at seen
    · exact nomatch seen
    · rename_i passes
      exact ⟨number, symbol, here, known, (Option.some.inj seen).symm,
        fun isPackage => by_contra fun asleep => passes ⟨isPackage, asleep⟩⟩

theorem scopes_layersOf (passed : Bool) (ids : List Nat) :
    (layersOf table ready passed ids).scopes = ids := by
  induction ids generalizing passed with
  | nil => rfl
  | cons id rest ih => exact congrArg (id :: ·) (ih _)

theorem scopes_contextOf : (contextOf table ready).scopes = table.chain table.current :=
  scopes_layersOf _ _

theorem capture_layersOf (passed : Bool) (ids : List Nat) :
    (layersOf table ready passed ids).capture = layersOf table ready true ids := by
  induction ids generalizing passed with
  | nil => rfl
  | cons id rest ih =>
      simp only [layersOf, Context.capture, List.map_cons, List.cons.injEq] at ih ⊢
      refine ⟨?_, ih _⟩
      cases isOuterIn table id <;> cases passed <;> rfl

theorem capture_contextOf : (contextOf table ready).capture
    = layersOf table ready true (table.chain table.current) :=
  capture_layersOf _ _

/-! ## Growing tables -/

theorem kindIn?_extends (extends_ : Extends before after) {id : Nat} (old : id < before.scopes.size) :
    kindIn? after id = kindIn? before id := by
  have scope : before.scopes[id]? = some before.scopes[id] := Array.getElem?_eq_getElem old
  have known : kindIn? before id = some before.scopes[id].kind := by rw [kindIn?, scope]; rfl
  rw [extends_.kindIn? known, known]

theorem view_extends (regular : Regular before) (extends_ : Extends before after) {id : Nat}
    (old : id < before.scopes.size) {name : String}
    (same : after.findIn? id name = before.findIn? id name) :
    view after ready id name = view before ready id name := by
  unfold view
  rw [same, kindIn?_extends extends_ old]
  cases found : before.findIn? id name with
  | none => rfl
  | some number =>
      have inside := regular.numbered id name number found
      have kept := extends_.symbols number _ (Array.getElem?_eq_getElem inside)
      rw [Option.bind_some, Option.bind_some, kept, Array.getElem?_eq_getElem inside]

theorem view_adds {top : Option Nat} (regular : Regular before) (adds : Adds top before after) {id : Nat}
    (old : id < before.scopes.size) (apart : top ≠ some id) : view after ready id = view before ready id :=
  funext fun name => view_extends regular adds.toExtends old (adds.fixed id old apart name)

theorem layersOf_adds {top : Option Nat} (regular : Regular before) (adds : Adds top before after)
    (passed : Bool) {ids : List Nat} (old : ∀ id ∈ ids, id < before.scopes.size)
    (apart : ∀ id ∈ ids, top ≠ some id) :
    layersOf after ready passed ids = layersOf before ready passed ids := by
  induction ids generalizing passed with
  | nil => rfl
  | cons id rest ih =>
      have here := old id (by simp)
      have tail := fun passed => ih passed (fun other member => old other (by simp [member]))
        (fun other member => apart other (by simp [member]))
      unfold layersOf isOuterIn
      rw [kindIn?_extends adds.toExtends here, view_adds regular adds here (apart id (by simp)), tail]

theorem contextOf_continues (regular : Regular before) (continues : Continues none before after) :
    contextOf after ready = contextOf before ready := by
  unfold contextOf
  rw [continues.current, continues.toExtends.chain regular.current]
  exact layersOf_adds regular continues.toAdds false (regular.chain_lt regular.current) nofun

theorem layersOf_enter (kind : BlockKind) (passed : Bool) {ids : List Nat}
    (old : ∀ id ∈ ids, id < table.scopes.size) :
    layersOf (table.enter kind) ready passed ids = layersOf table ready passed ids := by
  induction ids generalizing passed with
  | nil => rfl
  | cons id rest ih =>
      have here := old id (by simp)
      have same : view (table.enter kind) ready id = view table ready id := by
        funext name
        unfold view
        rw [findIn?_enter, kindIn?_enter_of_lt kind here]
        rfl
      unfold layersOf isOuterIn
      rw [kindIn?_enter_of_lt kind here, same, ih _ fun other member => old other (by simp [member])]

theorem layersOf_enter_cons (regular : Regular table) {kind : BlockKind} (inner : isOuter kind = false) :
    contextOf (table.enter kind) ready
      = .fresh table.scopes.size :: layersOf table ready (isFunction kind) (table.chain table.current) := by
  unfold contextOf
  rw [chain_enter, layersOf, kindIn?_enter, layersOf_enter kind _ (regular.chain_lt regular.current)]
  have empty : view (table.enter kind) ready table.scopes.size = fun _ => none := by
    funext name
    refine view_none ?_
    rw [findIn?_enter]
    simp [SymbolTable.findIn?]
  have free : isOuterIn (table.enter kind) table.scopes.size = false := by
    rw [isOuterIn, kindIn?_enter]
    exact inner
  simp [empty, free, Layer.fresh]

theorem contextOf_enter (regular : Regular table) {kind : BlockKind} (inner : isOuter kind = false)
    (block : isFunction kind = false) :
    contextOf (table.enter kind) ready = (contextOf table ready).enter table.scopes.size := by
  rw [layersOf_enter_cons regular inner, block]
  rfl

theorem contextOf_enter_function (regular : Regular table) (name : String) :
    contextOf (table.enter (.function name)) ready
      = ((contextOf table ready).capture).enter table.scopes.size := by
  rw [layersOf_enter_cons regular rfl, capture_contextOf]
  rfl

/-- The open scope belongs to the code itself. -/
def Open (table : SymbolTable) : Prop := isOuterIn table table.current = false

theorem contextOf_cons (regular : Regular table) (inner : Open table) :
    ∃ outer, table.chain table.current = table.current :: outer ∧ (∀ id ∈ outer, id < table.current) ∧
      contextOf table ready = ⟨table.current, .own, view table ready table.current⟩
        :: layersOf table ready ((kindIn? table table.current).any isFunction) outer := by
  obtain ⟨scope, found⟩ : ∃ scope, table.scopes[table.current]? = some scope :=
    ⟨_, Array.getElem?_eq_getElem regular.current⟩
  have chain : table.chain table.current = table.current :: scope.outer := by
    simp only [SymbolTable.chain, found]
  refine ⟨scope.outer, chain, regular.outer _ _ found, ?_⟩
  unfold contextOf
  rw [chain, layersOf, inner]
  rfl

theorem layer_insert {symbol : Symbol} (regular : Regular before)
    (extends_ : Extends before (before.insert before.current symbol)) (inner : Open before)
    (isValue : meaningOf symbol.kind = .value) :
    (⟨before.current, .own, view (before.insert before.current symbol) ready before.current⟩ : Layer)
      = Layer.add ⟨before.current, .own, view before ready before.current⟩ symbol.name := by
  unfold Layer.add
  split
  · rename_i blank
    congr 1
    funext name
    exact view_extends regular extends_ regular.current (findIn?_insert_blank blank _ name)
  · rename_i named
    congr 1
    funext name
    have find := findIn?_insert regular.current named before.current name
    by_cases same : name = symbol.name
    · rw [if_pos ⟨rfl, same⟩] at find
      rw [if_pos same, ← isValue]
      refine view_eq_of_findIn? find (by simp [SymbolTable.insert]) ?_
      -- The names of an open scope need not be ready: it is not that of a package.
      rintro ⟨package, isPackage⟩
      unfold Open isOuterIn at inner
      rw [← kindIn?_extends extends_ regular.current, isPackage] at inner
      cases inner
    · rw [if_neg fun both => same both.2] at find
      rw [if_neg same]
      exact view_extends regular extends_ regular.current find

/-- Declaring a value in the open scope adds its name to the context. -/
theorem contextOf_declare {number : Nat} {symbol : Symbol} {location : Location}
    (regular : Regular before) (inner : Open before) (isValue : meaningOf symbol.kind = .value)
    (ran : before.declare symbol location = .ok (number, after)) :
    Continues (some before.current) before after ∧
    contextOf after ready = (contextOf before ready).add symbol.name ∧
    (symbol.name ≠ blankName → (contextOf before ready).here symbol.name = none ∧
      (after.findIn? before.current symbol.name).isSome) := by
  obtain ⟨continues, rfl, new⟩ := continues_declareIn regular regular.current
    (fun path isPackage => by rw [isPackage] at isValue; cases isValue) ran
  have kinds := kindIn?_extends continues.toExtends regular.current
  have innerAfter : Open (before.insert before.current symbol) := by
    unfold Open isOuterIn
    rw [continues.current, kinds]
    exact inner
  obtain ⟨outer, chain, less, context⟩ := @contextOf_cons _ ready regular inner
  obtain ⟨outer', chain', _, context'⟩ := @contextOf_cons _ ready continues.regular innerAfter
  rw [continues.current, continues.toExtends.chain regular.current, chain] at chain'
  obtain rfl : outer = outer' := (List.cons.inj chain').2
  -- The scopes around the open one are older than it, so the declaration leaves their layers alone.
  have rest : ∀ passed, layersOf (before.insert before.current symbol) ready passed outer
      = layersOf before ready passed outer := fun passed =>
    layersOf_adds regular continues.toAdds passed
      (fun id member => Nat.lt_trans (less id member) regular.current)
      (fun id member same => absurd (Option.some.inj same) (Nat.ne_of_gt (less id member)))
  rw [continues.current, kinds, rest, layer_insert regular continues.toExtends inner isValue] at context'
  refine ⟨continues, ?_, fun named => ?_⟩
  · rw [context', context]
    rfl
  · rw [context]
    refine ⟨view_none (new named), ?_⟩
    rw [findIn?_insert regular.current named, if_pos ⟨rfl, rfl⟩]
    rfl

end MiniGo.Lexical
