import MiniGo.Proofs.Lexical.Judgement

/-!
# Tables of symbols that grow

Checking adds scopes, symbols and names to a table and takes none away. `Extends` is that order;
`Adds` says more: only one of the scopes, if any, has new names; `Continues` adds that the same scope
is open.
-/

namespace MiniGo.Lexical

def isOuterIn (table : SymbolTable) (id : Nat) : Bool := (kindIn? table id).all isOuter

/-- A table in which scopes stand inside earlier ones and names have symbols. Packages are symbols of
files, and only blocks stand inside a file. -/
structure Regular (table : SymbolTable) : Prop where
  current : table.current < table.scopes.size
  outer : ∀ (id : Nat) (scope : SymbolScope), table.scopes[id]? = some scope →
    ∀ other ∈ scope.outer, other < id
  keyed : ∀ (id : Nat) (scope : SymbolScope), table.scopes[id]? = some scope →
    ∀ entry ∈ scope.names, ∃ symbol, table.symbols[entry.2]? = some symbol ∧ symbol.name = entry.1
  imported : ∀ id name number symbol path, table.findIn? id name = some number →
    table.symbols[number]? = some symbol → symbol.kind = .package path →
    ∃ file, kindIn? table id = some (.file file)
  innermost : ∀ id < table.scopes.size, ∀ (position other : Nat) (file : String),
    (table.chain id)[position]? = some other → kindIn? table other = some (.file file) →
    ∀ nearer < position, ∀ inside : Nat, (table.chain id)[nearer]? = some inside →
      isOuterIn table inside = false

theorem Regular.numbered {table : SymbolTable} (regular : Regular table) (id : Nat) (name : String)
    (number : Nat) (found : table.findIn? id name = some number) : number < table.symbols.size := by
  obtain ⟨scope, here, has⟩ := Option.bind_eq_some_iff.mp found
  obtain ⟨front, back, same, _⟩ := List.lookup_eq_some_iff.mp has
  obtain ⟨symbol, known, _⟩ := regular.keyed id scope here (name, number) (by simp [same])
  exact (Array.getElem?_eq_some_iff.mp known).1

/-- One table has all that another has. -/
structure Extends (before after : SymbolTable) : Prop where
  scopes : before.scopes.size ≤ after.scopes.size
  kept : ∀ (id : Nat) (scope : SymbolScope), before.scopes[id]? = some scope →
    ∃ later, after.scopes[id]? = some later ∧ later.kind = scope.kind ∧ later.outer = scope.outer
  symbols : ∀ (number : Nat) (symbol : Symbol), before.symbols[number]? = some symbol →
    after.symbols[number]? = some symbol
  names : ∀ id name number, before.findIn? id name = some number →
    after.findIn? id name = some number
  uses : ∀ use, before.uses use → after.uses use

/-- One table has all that another has; of the scopes of that, only `top` has new names. -/
structure Adds (top : Option Nat) (before after : SymbolTable) : Prop extends Extends before after where
  regular : Regular after
  fixed : ∀ id < before.scopes.size, top ≠ some id → ∀ name,
    after.findIn? id name = before.findIn? id name

/-- Checking went on and came back to the same scope. -/
structure Continues (top : Option Nat) (before after : SymbolTable) : Prop
    extends Adds top before after where
  current : after.current = before.current

theorem Extends.refl (table : SymbolTable) : Extends table table where
  scopes := Nat.le_refl _
  kept _ scope found := ⟨scope, found, rfl, rfl⟩
  symbols _ _ found := found
  names _ _ _ found := found
  uses _ used := used

theorem Extends.trans {first second third : SymbolTable} (one : Extends first second)
    (two : Extends second third) : Extends first third where
  scopes := Nat.le_trans one.scopes two.scopes
  kept id scope found := by
    obtain ⟨later, there, kind, outer⟩ := one.kept id scope found
    obtain ⟨last, here, kind', outer'⟩ := two.kept id later there
    exact ⟨last, here, kind'.trans kind, outer'.trans outer⟩
  symbols number symbol found := two.symbols number symbol (one.symbols number symbol found)
  names id name number found := two.names id name number (one.names id name number found)
  uses use used := two.uses use (one.uses use used)

theorem Adds.refl {table : SymbolTable} (top : Option Nat) (regular : Regular table) :
    Adds top table table :=
  { Extends.refl table with
    regular
    fixed := fun _ _ _ _ => rfl }

theorem Continues.refl {table : SymbolTable} (top : Option Nat) (regular : Regular table) :
    Continues top table table :=
  ⟨.refl top regular, rfl⟩

theorem Adds.then {top other : Option Nat} {first second third : SymbolTable}
    (one : Adds top first second) (two : Adds other second third)
    (inside : ∀ id < first.scopes.size, other = some id → top = some id) : Adds top first third :=
  { one.toExtends.trans two.toExtends with
    regular := two.regular
    fixed := fun id old outside name => by
      rw [two.fixed id (Nat.lt_of_lt_of_le old one.scopes) (fun same => outside (inside id old same)),
        one.fixed id old outside] }

theorem Adds.trans {top : Option Nat} {first second third : SymbolTable} (one : Adds top first second)
    (two : Adds top second third) : Adds top first third :=
  one.then two fun _ _ same => same

theorem Adds.widen {before after : SymbolTable} (top : Option Nat) (adds : Adds none before after) :
    Adds top before after :=
  { adds with fixed := fun id old _ => adds.fixed id old nofun }

theorem Continues.trans {top : Option Nat} {first second third : SymbolTable}
    (one : Continues top first second) (two : Continues top second third) :
    Continues top first third :=
  ⟨one.toAdds.trans two.toAdds, two.current.trans one.current⟩

theorem Continues.widen {before after : SymbolTable} (top : Option Nat)
    (continues : Continues none before after) : Continues top before after :=
  ⟨continues.toAdds.widen top, continues.current⟩

theorem Extends.kindIn? {before after : SymbolTable} (extends_ : Extends before after) {id : Nat}
    {kind : BlockKind} (known : kindIn? before id = some kind) : kindIn? after id = some kind := by
  unfold Lexical.kindIn? at known ⊢
  obtain ⟨scope, found, rfl⟩ := Option.map_eq_some_iff.mp known
  obtain ⟨later, there, same, _⟩ := extends_.kept id scope found
  rw [there, ← same]
  rfl

theorem Extends.chain {before after : SymbolTable} (extends_ : Extends before after) {id : Nat}
    (old : id < before.scopes.size) : after.chain id = before.chain id := by
  have found : before.scopes[id]? = some before.scopes[id] := Array.getElem?_eq_getElem old
  obtain ⟨later, there, _, outer⟩ := extends_.kept id _ found
  simp only [SymbolTable.chain, found, there, outer]

theorem Regular.chain_lt {table : SymbolTable} (regular : Regular table) {id : Nat}
    (old : id < table.scopes.size) : ∀ other ∈ table.chain id, other < table.scopes.size := by
  have found : table.scopes[id]? = some table.scopes[id] := Array.getElem?_eq_getElem old
  intro other member
  unfold SymbolTable.chain at member
  rw [found] at member
  cases member with
  | head => exact old
  | tail _ member => exact Nat.lt_trans (regular.outer id _ found other member) old

/-! ## Operations on tables -/

theorem findIn?_enter {table : SymbolTable} (kind : BlockKind) (id : Nat) (name : String) :
    (table.enter kind).findIn? id name = table.findIn? id name := by
  unfold SymbolTable.findIn? SymbolTable.enter
  rcases Nat.lt_trichotomy id table.scopes.size with old | new | beyond
  · simp only [Array.getElem?_push_lt old, Array.getElem?_eq_getElem old]
  · subst new
    simp [SymbolScope.find?]
  · simp [Array.getElem?_push, Nat.ne_of_gt beyond]

theorem kindIn?_enter {table : SymbolTable} (kind : BlockKind) :
    kindIn? (table.enter kind) table.scopes.size = some kind := by
  simp [kindIn?, SymbolTable.enter]

theorem kindIn?_enter_of_lt {table : SymbolTable} (kind : BlockKind) {id : Nat}
    (old : id < table.scopes.size) : kindIn? (table.enter kind) id = kindIn? table id := by
  simp [kindIn?, SymbolTable.enter, Array.getElem?_push, Nat.ne_of_lt old]

theorem chain_enter {table : SymbolTable} (kind : BlockKind) :
    (table.enter kind).chain (table.enter kind).current
      = table.scopes.size :: table.chain table.current := by
  simp [SymbolTable.chain, SymbolTable.enter]

theorem chain_enter_of_lt {table : SymbolTable} (kind : BlockKind) {id : Nat}
    (old : id < table.scopes.size) : (table.enter kind).chain id = table.chain id := by
  simp [SymbolTable.chain, SymbolTable.enter, Array.getElem?_push, Nat.ne_of_lt old]

theorem getElem?_enter {table : SymbolTable} {kind : BlockKind} {id : Nat} {scope : SymbolScope}
    (found : (table.enter kind).scopes[id]? = some scope) :
    (id = table.scopes.size ∧ scope = ⟨kind, table.chain table.current, []⟩) ∨ table.scopes[id]? = some scope := by
  by_cases new : id = table.scopes.size
  · subst new
    refine Or.inl ⟨rfl, ?_⟩
    simpa [SymbolTable.enter, eq_comm] using found
  · refine Or.inr ?_
    simpa [SymbolTable.enter, Array.getElem?_push, new] using found

/-- A block can be entered anywhere, anything else outside of files only. -/
theorem Regular.enter {table : SymbolTable} (regular : Regular table) (kind : BlockKind)
    (placed : isOuter kind = false ∨
      ∀ other ∈ table.chain table.current, ∀ file, kindIn? table other ≠ some (.file file)) :
    Regular (table.enter kind) where
  current := by simp [SymbolTable.enter]
  outer id scope found other member := by
    rcases getElem?_enter found with ⟨rfl, rfl⟩ | before
    · exact regular.chain_lt regular.current other member
    · exact regular.outer id scope before other member
  keyed id scope found entry member := by
    rcases getElem?_enter found with ⟨rfl, rfl⟩ | before
    · exact absurd member List.not_mem_nil
    · exact regular.keyed id scope before entry member
  imported id name number symbol path found known isPackage := by
    rw [findIn?_enter] at found
    obtain ⟨file, here⟩ := regular.imported id name number symbol path found known isPackage
    obtain ⟨scope, there, _⟩ := Option.map_eq_some_iff.mp here
    rw [kindIn?_enter_of_lt kind (Array.getElem?_eq_some_iff.mp there).1]
    exact ⟨file, here⟩
  innermost id known position other file at' isFile nearer less inside at'' := by
    have kindOf : ∀ old < table.scopes.size, kindIn? (table.enter kind) old = kindIn? table old :=
      fun old => kindIn?_enter_of_lt kind
    by_cases new : id = table.scopes.size
    · -- The chain of the new scope is that of the scope it was entered from, one place further.
      subst new
      rw [show table.scopes.size = (table.enter kind).current from rfl, chain_enter] at at' at''
      obtain ⟨position, rfl⟩ : ∃ before, position = before + 1 := ⟨position - 1, by omega⟩
      rw [List.getElem?_cons_succ] at at'
      have member := List.mem_of_getElem? at'
      rw [kindOf other (regular.chain_lt regular.current other member)] at isFile
      cases nearer with
      | zero =>
          obtain rfl : table.scopes.size = inside := by simpa using at''
          rw [isOuterIn, kindIn?_enter]
          exact placed.resolve_right fun none => none other member file isFile
      | succ nearer =>
          rw [List.getElem?_cons_succ] at at''
          rw [isOuterIn, kindOf inside (regular.chain_lt regular.current inside (List.mem_of_getElem? at''))]
          exact regular.innermost _ regular.current position other file at' isFile nearer (by omega) inside
            at''
    · have old : id < table.scopes.size := by
        simp only [SymbolTable.enter, Array.size_push] at known
        omega
      rw [chain_enter_of_lt kind old] at at' at''
      rw [kindOf other (regular.chain_lt old other (List.mem_of_getElem? at'))] at isFile
      rw [isOuterIn, kindOf inside (regular.chain_lt old inside (List.mem_of_getElem? at''))]
      exact regular.innermost id old position other file at' isFile nearer less inside at''

theorem extends_enter {table : SymbolTable} (kind : BlockKind) :
    Extends table (table.enter kind) where
  scopes := by simp [SymbolTable.enter]
  kept id scope found := by
    have old : id < table.scopes.size := (Array.getElem?_eq_some_iff.mp found).1
    refine ⟨scope, ?_, rfl, rfl⟩
    simpa [SymbolTable.enter, Array.getElem?_push, Nat.ne_of_lt old] using found
  symbols _ _ found := found
  names id name number found := by rw [findIn?_enter]; exact found
  uses _ used := used

/-- Leaving a scope that was entered leads back to where it was entered. -/
theorem continues_exit {table inner : SymbolTable} {kind : BlockKind} {top : Option Nat}
    (regular : Regular table) (went : Continues top (table.enter kind) inner)
    (inside : ∀ id < table.scopes.size, top ≠ some id) : Continues none table inner.exit := by
  have scopes : inner.exit.scopes = inner.scopes := rfl
  have found : (table.enter kind).scopes[table.scopes.size]?
      = some ⟨kind, table.chain table.current, []⟩ := by simp [SymbolTable.enter]
  obtain ⟨later, there, _, outer⟩ := went.kept _ _ found
  have back : inner.exit.current = table.current := by
    have here : inner.current = table.scopes.size := went.current
    unfold SymbolTable.exit SymbolTable.parent?
    rw [here, there]
    simp only [Option.bind_some, outer]
    unfold SymbolTable.chain
    split <;> rfl
  have ext := (extends_enter kind).trans went.toExtends
  exact {
    scopes := ext.scopes
    kept := ext.kept
    symbols := ext.symbols
    names := ext.names
    uses := ext.uses
    regular := ⟨by rw [back, scopes]; exact Nat.lt_of_lt_of_le regular.current ext.scopes,
      went.regular.outer, went.regular.keyed, went.regular.imported, went.regular.innermost⟩
    current := back
    fixed := fun id old _ name => by
      change inner.findIn? id name = table.findIn? id name
      rw [went.fixed id (Nat.lt_of_lt_of_le old (extends_enter kind).scopes) (inside id old),
        findIn?_enter] }

theorem continues_used {table : SymbolTable} (regular : Regular table) (name : String)
    (location : Location) : Continues none table (table.used name location) where
  scopes := Nat.le_refl _
  kept _ scope found := ⟨scope, found, rfl, rfl⟩
  symbols _ _ found := found
  names _ _ _ found := found
  uses _ used := Or.inl used
  regular := ⟨regular.current, regular.outer, regular.keyed, regular.imported, regular.innermost⟩
  current := rfl
  fixed _ _ _ _ := rfl

theorem continues_counts {table : SymbolTable} (regular : Regular table)
    (counts : Expr → Option Nat → Prop) : Continues none table { table with counts } where
  scopes := Nat.le_refl _
  kept _ scope found := ⟨scope, found, rfl, rfl⟩
  symbols _ _ found := found
  names _ _ _ found := found
  uses _ used := used
  regular := ⟨regular.current, regular.outer, regular.keyed, regular.imported, regular.innermost⟩
  current := rfl
  fixed _ _ _ _ := rfl

theorem findIn?_insert {table : SymbolTable} {id : Nat} {symbol : Symbol}
    (old : id < table.scopes.size) (named : symbol.name ≠ blankName) (other : Nat) (name : String) :
    (table.insert id symbol).findIn? other name
      = if other = id ∧ name = symbol.name then some table.symbols.size
        else table.findIn? other name := by
  have unblank : (symbol.name == blankName) = false := by simpa using named
  unfold SymbolTable.findIn? SymbolTable.insert
  simp only [unblank, Bool.false_eq_true, if_false, Array.getElem?_modify]
  by_cases here : other = id
  · subst here
    simp only [if_true, Array.getElem?_eq_getElem old, Option.map_some, Option.bind_some,
      SymbolScope.find?, List.lookup_cons, true_and]
    by_cases same : name = symbol.name
    · simp [same]
    · have different : (name == symbol.name) = false := by simpa using same
      simp [different, same]
  · simp [here, Ne.symm here]

theorem findIn?_insert_blank {table : SymbolTable} {id : Nat} {symbol : Symbol}
    (blank : symbol.name = blankName) (other : Nat) (name : String) :
    (table.insert id symbol).findIn? other name = table.findIn? other name := by
  simp [SymbolTable.findIn?, SymbolTable.insert, blank]

theorem size_insert {table : SymbolTable} (id : Nat) (symbol : Symbol) :
    (table.insert id symbol).scopes.size = table.scopes.size := by
  unfold SymbolTable.insert
  dsimp only
  split
  · rfl
  · exact Array.size_modify

theorem kept_insert {table : SymbolTable} (id : Nat) (symbol : Symbol) {other : Nat} {scope : SymbolScope}
    (found : table.scopes[other]? = some scope) :
    ∃ later, (table.insert id symbol).scopes[other]? = some later ∧ later.kind = scope.kind ∧
      later.outer = scope.outer := by
  unfold SymbolTable.insert
  dsimp only
  split
  · exact ⟨scope, found, rfl, rfl⟩
  · rw [Array.getElem?_modify, found]
    simp only [Option.map_some]
    split <;> exact ⟨_, rfl, rfl, rfl⟩

theorem getElem?_insert {table : SymbolTable} {id number : Nat} {symbol : Symbol} {scope : SymbolScope}
    (found : (table.insert id symbol).scopes[number]? = some scope) :
    ∃ earlier, table.scopes[number]? = some earlier ∧ scope.kind = earlier.kind ∧
      scope.outer = earlier.outer := by
  have inside : number < table.scopes.size := size_insert id symbol ▸ (Array.getElem?_eq_some_iff.mp found).1
  obtain ⟨later, there, kind, outer⟩ := kept_insert id symbol (Array.getElem?_eq_getElem inside)
  obtain rfl := Option.some.inj (found.symm.trans there)
  exact ⟨_, Array.getElem?_eq_getElem inside, kind, outer⟩

theorem getElem?_insert_none {table : SymbolTable} {id number : Nat} {symbol : Symbol}
    (beyond : (table.insert id symbol).scopes[number]? = none) : table.scopes[number]? = none := by
  rw [Array.getElem?_eq_none_iff, ← size_insert id symbol]
  exact Array.getElem?_eq_none_iff.mp beyond

theorem kindIn?_insert {table : SymbolTable} (id other : Nat) (symbol : Symbol) :
    kindIn? (table.insert id symbol) other = kindIn? table other := by
  unfold kindIn?
  cases found : (table.insert id symbol).scopes[other]? with
  | none => rw [getElem?_insert_none found]
  | some scope =>
      obtain ⟨earlier, there, kind, _⟩ := getElem?_insert found
      rw [there, Option.map_some, Option.map_some, kind]

theorem chain_insert {table : SymbolTable} (id other : Nat) (symbol : Symbol) :
    (table.insert id symbol).chain other = table.chain other := by
  unfold SymbolTable.chain
  cases found : (table.insert id symbol).scopes[other]? with
  | none => rw [getElem?_insert_none found]
  | some scope =>
      obtain ⟨earlier, there, _, outer⟩ := getElem?_insert found
      simp only [there, outer]

/-- A scope that gets a name has the new symbol under it. -/
theorem entries_insert {table : SymbolTable} {id : Nat} {symbol : Symbol} {other : Nat}
    {scope : SymbolScope} (found : (table.insert id symbol).scopes[other]? = some scope)
    {entry : String × Nat} (member : entry ∈ scope.names) :
    entry = (symbol.name, table.symbols.size) ∨
      ∃ before, table.scopes[other]? = some before ∧ entry ∈ before.names := by
  unfold SymbolTable.insert at found
  dsimp only at found
  split at found
  · exact Or.inr ⟨scope, found, member⟩
  · rw [Array.getElem?_modify] at found
    split at found
    · obtain ⟨before, there, rfl⟩ := Option.map_eq_some_iff.mp found
      exact (List.mem_cons.mp member).imp_right fun inside => ⟨before, there, inside⟩
    · exact Or.inr ⟨scope, found, member⟩

theorem findIn?_insert_cases {table : SymbolTable} {id : Nat} {symbol : Symbol}
    (old : id < table.scopes.size) {other number : Nat} {name : String}
    (found : (table.insert id symbol).findIn? other name = some number) :
    (other = id ∧ number = table.symbols.size) ∨ table.findIn? other name = some number := by
  by_cases named : symbol.name = blankName
  · rw [findIn?_insert_blank named] at found
    exact Or.inr found
  · rw [findIn?_insert old named] at found
    split at found
    · rename_i here
      exact Or.inl ⟨here.1, (Option.some.inj found).symm⟩
    · exact Or.inr found

/-- A name that is new in its scope adds to a table. -/
theorem extends_insert {table : SymbolTable} {id : Nat} {symbol : Symbol}
    (old : id < table.scopes.size)
    (new : symbol.name ≠ blankName → table.findIn? id symbol.name = none) :
    Extends table (table.insert id symbol) where
  scopes := Nat.le_of_eq (size_insert id symbol).symm
  kept _ _ found := kept_insert id symbol found
  symbols number other found := by
    have inside := (Array.getElem?_eq_some_iff.mp found).1
    rw [SymbolTable.symbols_insert, Array.getElem?_push_lt inside]
    exact (Array.getElem?_eq_getElem inside).symm.trans found
  names other name number found := by
    by_cases named : symbol.name = blankName
    · rw [findIn?_insert_blank named]
      exact found
    · rw [findIn?_insert old named, if_neg]
      · exact found
      · rintro ⟨rfl, rfl⟩
        rw [new named] at found
        exact nomatch found
  uses _ used := used

theorem Regular.insert {table : SymbolTable} (regular : Regular table) {id : Nat} {symbol : Symbol}
    (old : id < table.scopes.size)
    (placed : ∀ path, symbol.kind = .package path → ∃ file, kindIn? table id = some (.file file)) :
    Regular (table.insert id symbol) where
  current := by
    rw [size_insert]
    exact regular.current
  outer other scope found inner member := by
    obtain ⟨before, there, _, outer⟩ := getElem?_insert found
    rw [outer] at member
    exact regular.outer other before there inner member
  keyed other scope found entry member := by
    rw [SymbolTable.symbols_insert]
    rcases entries_insert found member with rfl | ⟨before, there, member⟩
    · exact ⟨symbol, Array.getElem?_push_size, rfl⟩
    · obtain ⟨known, at', same⟩ := regular.keyed other before there entry member
      have inside := (Array.getElem?_eq_some_iff.mp at').1
      rw [Array.getElem?_push_lt inside]
      exact ⟨known, (Array.getElem?_eq_getElem inside).symm.trans at', same⟩
  imported other name number found path has known isPackage := by
    rw [kindIn?_insert]
    rw [SymbolTable.symbols_insert] at known
    rcases findIn?_insert_cases old has with ⟨rfl, rfl⟩ | before
    · obtain rfl : symbol = found := by simpa using known
      exact placed path isPackage
    -- A name that was there keeps its number, and numbers of new symbols are larger.
    · have inside := regular.numbered other name number before
      rw [Array.getElem?_push_lt inside] at known
      exact regular.imported other name number found path before
        ((Array.getElem?_eq_getElem inside).trans known) isPackage
  innermost scope known position other file at' isFile nearer less inside at'' := by
    rw [size_insert] at known
    rw [chain_insert] at at' at''
    rw [kindIn?_insert] at isFile
    rw [isOuterIn, kindIn?_insert]
    exact regular.innermost scope known position other file at' isFile nearer less inside at''

/-- A name that is declared is new in its scope, and found there afterwards. -/
theorem continues_declareIn {table after : SymbolTable} {id number : Nat} {symbol : Symbol}
    {location : Location} (regular : Regular table) (old : id < table.scopes.size)
    (placed : ∀ path, symbol.kind = .package path → ∃ file, kindIn? table id = some (.file file))
    (ran : table.declareIn id symbol location = .ok (number, after)) :
    Continues (some id) table after ∧ after = table.insert id symbol ∧
      (symbol.name ≠ blankName → table.findIn? id symbol.name = none) := by
  unfold SymbolTable.declareIn at ran
  split at ran
  · exact nomatch ran
  rename_i free
  obtain ⟨rfl, rfl⟩ : table.symbols.size = number ∧ table.insert id symbol = after := by
    simpa using ran
  have new : symbol.name ≠ blankName → table.findIn? id symbol.name = none := by
    intro named
    cases found : table.findIn? id symbol.name with
    | none => rfl
    | some other => exact absurd (by simp [named, found]) free
  refine ⟨{ extends_insert old new with
    regular := regular.insert old placed
    current := rfl
    fixed := fun other _ outside name => ?_ }, rfl, new⟩
  by_cases named : symbol.name = blankName
  · exact findIn?_insert_blank named other name
  · rw [findIn?_insert old named, if_neg]
    rintro ⟨rfl, _⟩
    exact outside rfl

end MiniGo.Lexical
