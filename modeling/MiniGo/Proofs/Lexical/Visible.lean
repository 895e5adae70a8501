import MiniGo.Package.FreeNames
import MiniGo.Proofs.Lexical.Contexts

/-!
# Names that are seen

A scope of a package or of a file shows a name only if it is declared already and ready. The context
of a table resolves a name as the table does if such a scope shows whatever it has of that name in
the end: then it is `Clear` which scope the name is found in. Names that blocks around the code have
are clear anyway, and the free names of the code have to be `Settled`.
-/

namespace MiniGo.Lexical

variable {table before after final : SymbolTable} {ready : String → Prop} {imports : Interfaces}

/-! ## Names -/

/-- Captured layers of a table have a function inside. -/
theorem nested_layersOf (facts : Facts) (extends_ : Extends table facts.table) (passed : Bool)
    {ids : List Nat} (old : ∀ id ∈ ids, id < table.scopes.size) :
    ∀ (position : Nat) (layer : Layer), (layersOf table ready passed ids)[position]? = some layer →
      layer.mode = .captured →
      (∃ kind, facts.kind? layer.scope = some kind ∧ isOuter kind = false) ∧
      (passed = true ∨ ∃ nearer < position, ∃ inner kind,
        (layersOf table ready passed ids)[nearer]? = some inner ∧
          facts.kind? inner.scope = some kind ∧ isFunction kind = true) := by
  induction ids generalizing passed with
  | nil =>
      intro position layer found
      simp [layersOf] at found
  | cons id rest ih =>
      intro position layer found captured
      obtain ⟨scope, here⟩ : ∃ scope, table.scopes[id]? = some scope :=
        ⟨_, Array.getElem?_eq_getElem (old id (by simp))⟩
      have kind : kindIn? table id = some scope.kind := by rw [kindIn?, here]; rfl
      have kindLater : facts.kind? id = some scope.kind := extends_.kindIn? kind
      cases position with
      -- The layer itself is captured only because a function was passed.
      | zero =>
          simp only [layersOf, List.getElem?_cons_zero, Option.some.injEq] at found
          subst found
          dsimp only at captured
          cases outer : isOuterIn table id with
          | true => rw [outer] at captured; cases captured
          | false =>
              rw [outer] at captured
              refine ⟨⟨scope.kind, kindLater, ?_⟩, Or.inl ?_⟩
              · rw [isOuterIn, kind] at outer
                exact outer
              · cases passed with
                | true => rfl
                | false => cases captured
      | succ position =>
          simp only [layersOf, List.getElem?_cons_succ] at found
          obtain ⟨block, inside⟩ := ih _ (fun other member => old other (by simp [member]))
            position layer found captured
          refine ⟨block, ?_⟩
          rcases inside with now | ⟨nearer, less, inner, kind', at', rest⟩
          · rcases Bool.or_eq_true_iff.mp now with before | function
            · exact Or.inl before
            · refine Or.inr ⟨0, by omega, _, scope.kind, by rw [layersOf]; rfl, kindLater, ?_⟩
              rw [kind] at function
              exact function
          · exact Or.inr ⟨nearer + 1, by omega, inner, kind', by simpa [layersOf] using at', rest⟩

theorem nested_contextOf (facts : Facts) (regular : Regular table)
    (extends_ : Extends table facts.table) : Nested facts (contextOf table ready) := by
  intro position layer found captured
  obtain ⟨block, inside⟩ := nested_layersOf facts extends_ false (regular.chain_lt regular.current)
    position layer found captured
  exact ⟨block, inside.resolve_left Bool.false_ne_true⟩

/-- No scope of a package or a file is passed on the way to a name if the final table has the name
there. -/
def Clear (final table : SymbolTable) (ready : String → Prop) (name : String) (ids : List Nat) : Prop :=
  ∀ (position id : Nat), ids[position]? = some id → isOuterIn table id = true →
    (∀ nearer < position, ∀ other, ids[nearer]? = some other → table.findIn? other name = none) →
    (final.findIn? id name).isSome → (view table ready id name).isSome

theorem Clear.tail {name : String} {id : Nat} {ids : List Nat}
    (clear : Clear final table ready name (id :: ids)) (free : table.findIn? id name = none) :
    Clear final table ready name ids := by
  intro position other at' outer passed declared
  refine clear (position + 1) other (by simpa using at') outer (fun nearer less near at'' => ?_) declared
  cases nearer with
  | zero =>
      obtain rfl : id = near := by simpa using at''
      exact free
  | succ nearer => exact passed nearer (by omega) near (by simpa using at'')

theorem resolves_layersOf {name : String} {number : Nat} {symbol : Symbol} (passed : Bool)
    {ids : List Nat} (extends_ : Extends table final)
    (found : (ids.findSome? fun id => table.findIn? id name) = some number)
    (known : table.symbols[number]? = some symbol) (clear : Clear final table ready name ids) :
    Resolves ⟨final, imports⟩ name (layersOf table ready passed ids)
      (ids.findIdx fun id => (table.findIn? id name).isSome) (meaningOf symbol.kind) := by
  induction ids generalizing passed with
  | nil => cases found
  | cons id rest ih =>
      unfold layersOf
      cases here : table.findIn? id name with
      | some other =>
          rw [List.findSome?_cons, here] at found
          obtain rfl := Option.some.inj found
          rw [List.findIdx_cons, here]
          refine .here (view_eq_of_findIn? here known ?_)
          rintro ⟨package, isPackage⟩
          have outer : isOuterIn table id = true := by rw [isOuterIn, isPackage]; rfl
          have seen := clear 0 id rfl outer (fun _ less => absurd less (Nat.not_lt_zero _)) (by rw [extends_.names id name other here]; rfl)
          by_contra asleep
          have hidden : (∃ package, kindIn? table id = some (.package package)) ∧ ¬ ready name :=
            ⟨⟨package, isPackage⟩, asleep⟩
          unfold view at seen
          rw [here, Option.bind_some, known] at seen
          simp only [if_pos hidden] at seen
          cases seen
      | none =>
          rw [List.findSome?_cons, here] at found
          rw [List.findIdx_cons, here]
          refine .outward (view_none here) (fun outer declared => ?_) (ih _ found (clear.tail here))
          have isOuter : isOuterIn table id = true := by
            by_contra inner
            simp only [inner, if_false] at outer
            split at outer <;> cases outer
          have seen := clear 0 id rfl isOuter (fun _ less => absurd less (Nat.not_lt_zero _)) declared
          rw [view_none here] at seen
          cases seen

theorem resolves_contextOf {name : String} {symbol : Symbol} (extends_ : Extends table final)
    (found : table.symbol? name = some symbol)
    (clear : Clear final table ready name (table.chain table.current)) :
    Resolves ⟨final, imports⟩ name (contextOf table ready) (table.depthOf name) (meaningOf symbol.kind) := by
  obtain ⟨number, first, known⟩ := Option.bind_eq_some_iff.mp found
  exact resolves_layersOf false extends_ first known clear

theorem used_contextOf {name : String} {location : Location} {symbol : Symbol} (regular : Regular table)
    (extends_ : Extends (table.used name location) final) (found : table.symbol? name = some symbol)
    (clear : Clear final table ready name (table.chain table.current)) :
    Used ⟨final, imports⟩ (contextOf table ready) name location (meaningOf symbol.kind) := by
  have before : Extends table final := (continues_used regular name location).toExtends.trans extends_
  refine ⟨nested_contextOf _ regular before, table.depthOf name, ?_, resolves_contextOf before found clear⟩
  rw [scopes_contextOf]
  exact extends_.uses _ (Or.inr rfl)

/-! ## Free and bound names -/

/-- Names of which the scopes around the code show what they have in the end. -/
def Settled (final table : SymbolTable) (ready : String → Prop) (names : List String) : Prop :=
  ∀ name ∈ names, ∀ id ∈ table.chain table.current, isOuterIn table id = true →
    (final.findIn? id name).isSome → (view table ready id name).isSome

/-- Names that a block around the code has, inside of all files. -/
def Local (table : SymbolTable) (bound : List String) : Prop :=
  ∀ name ∈ bound, name ≠ blankName → ∃ position id : Nat,
    (table.chain table.current)[position]? = some id ∧ (table.findIn? id name).isSome ∧
    ∀ nearer ≤ position, ∀ other : Nat, (table.chain table.current)[nearer]? = some other →
      isOuterIn table other = false

theorem clear_of_free {name : String} {bound : List String} (named : name ≠ blankName)
    (isLocal : Local table bound)
    (settled : Settled final table ready (FreeNames.ofName bound name)) :
    Clear final table ready name (table.chain table.current) := by
  intro position id at' outer passed declared
  unfold FreeNames.ofName at settled
  split at settled
  · rename_i inside
    obtain ⟨place, other, there, has, inner⟩ := isLocal name (by simpa using inside) named
    have less : place < position := by
      by_contra notLess
      rw [inner position (by omega) id at'] at outer
      exact nomatch outer
    rw [passed place less other there] at has
    exact nomatch has
  · exact settled name (by simp) id (List.mem_of_getElem? at') outer declared

theorem Settled.subset {names fewer : List String} (settled : Settled final table ready names)
    (sub : ∀ name ∈ fewer, name ∈ names) : Settled final table ready fewer :=
  fun name member => settled name (sub name member)

/-- A name found in a scope that is no package, with only blocks inside of it, is clear. -/
theorem clear_of_found {name : String} {position id number : Nat} {symbol : Symbol}
    (at' : (table.chain table.current)[position]? = some id)
    (found : table.findIn? id name = some number) (known : table.symbols[number]? = some symbol)
    (plain : ∀ package, kindIn? table id ≠ some (.package package))
    (inner : ∀ nearer < position, ∀ other : Nat, (table.chain table.current)[nearer]? = some other →
      isOuterIn table other = false) :
    Clear final table ready name (table.chain table.current) := by
  intro place other there outer passed _
  rcases Nat.lt_trichotomy place position with less | rfl | more
  · rw [inner place less other there] at outer
    exact nomatch outer
  · obtain rfl : id = other := Option.some.inj (at'.symm.trans there)
    rw [view_eq_of_findIn? found known fun isPackage => absurd isPackage.choose_spec (plain _)]
    rfl
  · rw [passed position more id at'] at found
    exact nomatch found

theorem clear_of_current {name : String} {number : Nat} {symbol : Symbol} (regular : Regular table)
    (inner : Open table) (found : table.lookupCurrent? name = some number)
    (known : table.symbols[number]? = some symbol) :
    Clear final table ready name (table.chain table.current) := by
  obtain ⟨outer, chain, _⟩ := @contextOf_cons _ ready regular inner
  refine @clear_of_found _ _ _ _ 0 table.current _ _ (by rw [chain]; rfl) found known ?_
    fun _ less => absurd less (Nat.not_lt_zero _)
  intro package isPackage
  rw [Open, isOuterIn, isPackage] at inner
  cases inner

theorem clear_of_import {name path : String} {symbol : Symbol} (regular : Regular table)
    (found : table.symbol? name = some symbol) (isPackage : symbol.kind = .package path) :
    Clear final table ready name (table.chain table.current) := by
  obtain ⟨number, first, known⟩ := Option.bind_eq_some_iff.mp found
  obtain ⟨front, id, back, chain, here, _⟩ := List.findSome?_eq_some_iff.mp first
  obtain ⟨file, isFile⟩ := regular.imported id name number symbol path here known isPackage
  have at' : (table.chain table.current)[front.length]? = some id := by simp [chain]
  refine clear_of_found at' here known (fun package isPackage => ?_)
    (regular.innermost _ regular.current _ id file at' isFile)
  rw [isFile] at isPackage
  exact nomatch isPackage

/-! ## Walking on -/

theorem isOuterIn_extends (extends_ : Extends before after) {id : Nat} (old : id < before.scopes.size) :
    isOuterIn after id = isOuterIn before id := by
  rw [isOuterIn, isOuterIn, kindIn?_extends extends_ old]

theorem Open.continues {top : Option Nat} (inner : Open before) (regular : Regular before)
    (continues : Continues top before after) : Open after := by
  rw [Open, continues.current, isOuterIn_extends continues.toExtends regular.current]
  exact inner

theorem Open.enter {kind : BlockKind} (inner : isOuter kind = false) : Open (table.enter kind) := by
  rw [Open, isOuterIn, show (table.enter kind).current = table.scopes.size from rfl, kindIn?_enter]
  exact inner

/-- The scopes outside of blocks show the same names behind code that declares names in blocks. -/
theorem Settled.continues {names : List String} {top : Option Nat}
    (settled : Settled final before ready names) (regular : Regular before)
    (continues : Continues top before after)
    (block : ∀ id ∈ before.chain before.current, isOuterIn before id = true → top ≠ some id) :
    Settled final after ready names := by
  intro name member id around outer declared
  rw [continues.current, continues.toExtends.chain regular.current] at around
  have old := regular.chain_lt regular.current id around
  rw [isOuterIn_extends continues.toExtends old] at outer
  rw [view_adds regular continues.toAdds old (block id around outer)]
  exact settled name member id around outer declared

theorem Settled.enter {names : List String} (settled : Settled final table ready names)
    (regular : Regular table) {kind : BlockKind} (inner : isOuter kind = false) :
    Settled final (table.enter kind) ready names := by
  intro name member id around outer declared
  rw [chain_enter] at around
  cases around with
  | head =>
      rw [isOuterIn, kindIn?_enter] at outer
      exact absurd outer (by simp [inner])
  | tail _ around =>
      have old := regular.chain_lt regular.current id around
      rw [isOuterIn_extends (extends_enter kind) old] at outer
      have same : view (table.enter kind) ready id name = view table ready id name :=
        view_extends regular (extends_enter kind) old (findIn?_enter kind id name)
      rw [same]
      exact settled name member id around outer declared

theorem Local.subset {bound fewer : List String} (isLocal : Local table bound)
    (sub : ∀ name ∈ fewer, name ∈ bound) : Local table fewer :=
  fun name member => isLocal name (sub name member)

theorem Local.continues {bound : List String} {top : Option Nat} (isLocal : Local before bound)
    (regular : Regular before) (continues : Continues top before after) : Local after bound := by
  intro name member named
  obtain ⟨position, id, at', has, inner⟩ := isLocal name member named
  rw [continues.current, continues.toExtends.chain regular.current]
  refine ⟨position, id, at', ?_, fun nearer less other there => ?_⟩
  · obtain ⟨number, found⟩ := Option.isSome_iff_exists.mp has
    rw [continues.names id name number found]
    rfl
  · have old := regular.chain_lt regular.current other (List.mem_of_getElem? there)
    rw [isOuterIn_extends continues.toExtends old]
    exact inner nearer less other there

theorem Local.enter {bound : List String} (isLocal : Local table bound) (regular : Regular table)
    {kind : BlockKind} (inner : isOuter kind = false) : Local (table.enter kind) bound := by
  intro name member named
  obtain ⟨position, id, at', has, around⟩ := isLocal name member named
  rw [chain_enter]
  refine ⟨position + 1, id, by simpa using at', by rw [findIn?_enter]; exact has, ?_⟩
  intro nearer less other there
  cases nearer with
  | zero =>
      obtain rfl : table.scopes.size = other := by simpa using there
      rw [isOuterIn, kindIn?_enter]
      exact inner
  | succ nearer =>
      have there : (table.chain table.current)[nearer]? = some other := by simpa using there
      have old := regular.chain_lt regular.current other (List.mem_of_getElem? there)
      rw [isOuterIn_extends (extends_enter kind) old]
      exact around nearer (by omega) other there

theorem Local.cons {bound : List String} {name : String} (isLocal : Local table bound)
    (regular : Regular table) (inner : Open table)
    (has : name ≠ blankName → (table.findIn? table.current name).isSome) :
    Local table (name :: bound) := by
  intro other member named
  rcases List.mem_cons.mp member with rfl | member
  · obtain ⟨outer, chain, _⟩ := @contextOf_cons _ (fun _ => True) regular inner
    refine ⟨0, table.current, by rw [chain]; rfl, has named, fun nearer less other there => ?_⟩
    obtain rfl : nearer = 0 := by omega
    obtain rfl : table.current = other := by simpa [chain] using there
    exact inner
  · exact isLocal other member named

end MiniGo.Lexical
