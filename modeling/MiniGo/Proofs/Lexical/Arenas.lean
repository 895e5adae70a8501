import MiniGo.Proofs.Lexical.Tables

/-!
# Tables under any operations

The checker opens and closes scopes in pairs. A table keeps its order whatever is done to it: scopes may be left
and resumed, symbols may be declared into any scope that exists, and a declaration may fail on the way
(`TableAct`). In every table that an empty one leads to, a scope stands inside an earlier one, names have symbols,
and a name means what the nearest scope around has for it (`Ordered`). A declaration that fails has changed nothing
(`DeclareLaws`), and what is bound once stays bound to its symbol.
-/

namespace MiniGo

namespace SymbolTable

/-- Binds a name in a scope. -/
def bindName (table : SymbolTable) (id : Nat) (name : String) (number : Nat) : SymbolTable :=
  { table with scopes := table.scopes.modify id fun scope => { scope with names := (name, number) :: scope.names } }

/-- Declares a symbol in a table that is changed in place, one step after another, and gives its number. -/
def declareInPlace (id : Nat) (symbol : Symbol) (location : Location) :
    StateM SymbolTable (Except ResolutionError Nat) := do
  let number := (← get).symbols.size
  if symbol.name != blankName then
    if ((← get).findIn? id symbol.name).isSome then return .error (.redeclared symbol.name location)
    modify (·.bindName id symbol.name number)
  modify fun table => { table with symbols := table.symbols.push symbol }
  return .ok number

end SymbolTable

/-- What is done to a table. -/
inductive TableAct where
  | enter (kind : BlockKind)
  | exit
  | resume (id : Nat)
  | declare (symbol : Symbol) (location : Location)
  | declareIn (id : Nat) (symbol : Symbol) (location : Location)

namespace TableAct

/-- The table after an act. -/
def run (table : SymbolTable) : TableAct → SymbolTable
  | enter kind => table.enter kind
  | exit => table.exit
  | resume id => table.resume id
  | declare symbol location => (SymbolTable.declareInPlace table.current symbol location table).2
  | declareIn id symbol location => (SymbolTable.declareInPlace id symbol location table).2

/-- Symbols are declared into scopes that exist. -/
def Fits (table : SymbolTable) : TableAct → Prop
  | declareIn id _ _ => id < table.scopes.size
  | _ => True

end TableAct

namespace Lexical

variable {table before after : SymbolTable} {id number : Nat} {name : String} {symbol : Symbol}
  {location : Location}

/-- Acts lead from one table to another. -/
inductive LedTo (before : SymbolTable) : SymbolTable → Prop
  | refl : LedTo before before
  | step {between : SymbolTable} (act : TableAct) : LedTo before between → act.Fits between →
      LedTo before (act.run between)

/-- What a scope or the nearest one around it has for a name. -/
inductive Nearest (table : SymbolTable) (name : String) : Nat → Option Nat → Prop
  | here {id number : Nat} : table.findIn? id name = some number → Nearest table name id (some number)
  | around {id outer : Nat} {found : Option Nat} : table.findIn? id name = none → table.parent? id = some outer →
      Nearest table name outer found → Nearest table name id found
  | nowhere {id : Nat} : table.findIn? id name = none → table.parent? id = none → Nearest table name id none

/-- A table in which scopes stand inside earlier ones, names have symbols, the blank name is free, and a name means
what the nearest scope has for it. -/
structure Ordered (table : SymbolTable) : Prop where
  current : table.current < table.scopes.size
  parents : ∀ id outer, table.parent? id = some outer → outer < id
  named : ∀ id name number, table.findIn? id name = some number →
    ∃ symbol, table.symbols[number]? = some symbol ∧ symbol.name = name
  blank : ∀ id, table.findIn? id blankName = none
  nearest : ∀ name, Nearest table name table.current (table.lookup? name)

/-- What a declaration does to a table: it fails for a name that its scope has, and then changes nothing, and else
it stores the symbol and binds its name, unless that is blank. -/
structure DeclareLaws (table : SymbolTable) (id : Nat) (symbol : Symbol) (location : Location) : Prop where
  agrees : SymbolTable.declareInPlace id symbol location table
    = match table.declareIn id symbol location with
      | .ok (number, after) => (.ok number, after)
      | .error error => (.error error, table)
  fails : symbol.name ≠ blankName ∧ (table.findIn? id symbol.name).isSome →
    SymbolTable.declareInPlace id symbol location table = (.error (.redeclared symbol.name location), table)
  stores : ¬ (symbol.name ≠ blankName ∧ (table.findIn? id symbol.name).isSome) →
    ∃ after, SymbolTable.declareInPlace id symbol location table = (.ok table.symbols.size, after) ∧
      after.symbols = table.symbols.push symbol ∧ after.current = table.current ∧
      ∀ other name, after.findIn? other name
        = if symbol.name ≠ blankName ∧ other = id ∧ name = symbol.name then some table.symbols.size
          else table.findIn? other name

/-! ## Declarations -/

/-- The steps come to what `declareIn` says, and a failure leaves the table as it was. -/
theorem declareInPlace_eq (id : Nat) (symbol : Symbol) (location : Location) (table : SymbolTable) :
    SymbolTable.declareInPlace id symbol location table
      = match table.declareIn id symbol location with
        | .ok (number, after) => (.ok number, after)
        | .error error => (.error error, table) := by
  unfold SymbolTable.declareInPlace SymbolTable.declareIn SymbolTable.insert
  by_cases blank : symbol.name = blankName
  · simp [blank, bind, StateT.bind, get, getThe, MonadStateOf.get, StateT.get, modify, modifyGet,
      MonadStateOf.modifyGet, StateT.modifyGet, pure, StateT.pure]
  · cases found : (table.findIn? id symbol.name).isSome <;>
      simp [blank, found, SymbolTable.bindName, bind, StateT.bind, get, getThe, MonadStateOf.get, StateT.get, modify,
        modifyGet, MonadStateOf.modifyGet, StateT.modifyGet, pure, StateT.pure]

theorem declareInPlace_fails (named : symbol.name ≠ blankName) (bound : (table.findIn? id symbol.name).isSome) :
    SymbolTable.declareInPlace id symbol location table = (.error (.redeclared symbol.name location), table) := by
  simp [declareInPlace_eq, SymbolTable.declareIn, named, bound]

theorem declareInPlace_stores (free : ¬ (symbol.name ≠ blankName ∧ (table.findIn? id symbol.name).isSome)) :
    SymbolTable.declareInPlace id symbol location table = (.ok table.symbols.size, table.insert id symbol) := by
  have passes : (symbol.name != blankName && (table.findIn? id symbol.name).isSome) = false := by
    simpa using free
  simp [declareInPlace_eq, SymbolTable.declareIn, passes]

theorem declareLaws (old : id < table.scopes.size) (symbol : Symbol) (location : Location) :
    DeclareLaws table id symbol location where
  agrees := declareInPlace_eq id symbol location table
  fails taken := declareInPlace_fails taken.1 taken.2
  stores free := by
    refine ⟨table.insert id symbol, declareInPlace_stores free, rfl, rfl, fun other name => ?_⟩
    by_cases blank : symbol.name = blankName
    · simp [blank, findIn?_insert_blank]
    · simp [blank, findIn?_insert old blank]

/-! ## Order -/

/-- Scopes stand inside earlier ones, each with all the scopes around it, and the names of a scope have symbols. -/
structure Arena (table : SymbolTable) : Prop where
  current : table.current < table.scopes.size
  around : ∀ (id : Nat) (scope : SymbolScope), table.scopes[id]? = some scope →
    ∀ outer rest, scope.outer = outer :: rest → outer < id ∧ table.chain outer = scope.outer
  keyed : ∀ (id : Nat) (scope : SymbolScope), table.scopes[id]? = some scope → ∀ entry ∈ scope.names,
    entry.1 ≠ blankName ∧ ∃ symbol, table.symbols[entry.2]? = some symbol ∧ symbol.name = entry.1

theorem arena_empty : Arena .empty where
  current := by decide
  around id scope found outer rest inside := by
    obtain ⟨small, rfl⟩ := Array.getElem?_eq_some_iff.mp found
    obtain rfl : id = 0 := by simpa [SymbolTable.empty] using small
    exact nomatch inside
  keyed id scope found entry member := by
    obtain ⟨small, rfl⟩ := Array.getElem?_eq_some_iff.mp found
    obtain rfl : id = 0 := by simpa [SymbolTable.empty] using small
    exact nomatch member

theorem Arena.enter (arena : Arena table) (kind : BlockKind) : Arena (table.enter kind) where
  current := by simp [SymbolTable.enter]
  around id scope found outer rest inside := by
    rcases getElem?_enter found with ⟨rfl, rfl⟩ | old
    · obtain rfl : outer = table.current := by
        change table.chain table.current = outer :: rest at inside
        rw [SymbolTable.chain, Array.getElem?_eq_getElem arena.current] at inside
        exact (List.cons.inj inside).1.symm
      rw [chain_enter_of_lt kind arena.current]
      exact ⟨arena.current, rfl⟩
    · obtain ⟨less, same⟩ := arena.around id scope old outer rest inside
      have stored := (Array.getElem?_eq_some_iff.mp old).1
      rw [chain_enter_of_lt kind (by omega)]
      exact ⟨less, same⟩
  keyed id scope found entry member := by
    rcases getElem?_enter found with ⟨_, rfl⟩ | old
    · exact absurd member List.not_mem_nil
    · exact arena.keyed id scope old entry member

theorem Arena.open (arena : Arena table) (old : id < table.scopes.size) : Arena { table with current := id } :=
  ⟨old, arena.around, arena.keyed⟩

theorem Arena.parent_lt (arena : Arena table) {outer : Nat} (inside : table.parent? id = some outer) : outer < id := by
  obtain ⟨scope, found, first⟩ := Option.bind_eq_some_iff.mp inside
  obtain ⟨rest, same⟩ := List.head?_eq_some_iff.mp first
  exact (arena.around id scope found outer rest same).1

theorem Arena.exit (arena : Arena table) : Arena table.exit := by
  apply arena.open
  cases inside : table.parent? table.current with
  | none => exact arena.current
  | some outer => exact Nat.lt_trans (arena.parent_lt inside) arena.current

theorem Arena.resume (arena : Arena table) (id : Nat) : Arena (table.resume id) := by
  unfold SymbolTable.resume
  split
  · exact arena.open ‹_›
  · exact arena

theorem Arena.insert (arena : Arena table) (id : Nat) (symbol : Symbol) : Arena (table.insert id symbol) where
  current := by
    rw [size_insert]
    exact arena.current
  around other scope found outer rest inside := by
    obtain ⟨earlier, there, _, same⟩ := getElem?_insert found
    rw [chain_insert, same]
    exact arena.around other earlier there outer rest (same ▸ inside)
  keyed other scope found entry member := by
    rw [SymbolTable.symbols_insert]
    have kept : ∀ (earlier : SymbolScope), table.scopes[other]? = some earlier → entry ∈ earlier.names →
        entry.1 ≠ blankName ∧ ∃ known, (table.symbols.push symbol)[entry.2]? = some known ∧ known.name = entry.1 := by
      intro earlier there member
      obtain ⟨named, known, stored, same⟩ := arena.keyed other earlier there entry member
      have inside := (Array.getElem?_eq_some_iff.mp stored).1
      refine ⟨named, known, ?_, same⟩
      rw [Array.getElem?_push_lt inside, ← stored, Array.getElem?_eq_getElem inside]
    by_cases blank : symbol.name = blankName
    · have same : (table.insert id symbol).scopes = table.scopes := by simp [SymbolTable.insert, blank]
      exact kept scope (same ▸ found) member
    · rcases entries_insert found member with rfl | ⟨earlier, there, member⟩
      · exact ⟨blank, symbol, Array.getElem?_push_size, rfl⟩
      · exact kept earlier there member

theorem Arena.run (arena : Arena table) (act : TableAct) : Arena (act.run table) := by
  have declared : ∀ id symbol location,
      Arena (SymbolTable.declareInPlace id symbol location table).2 := by
    intro id symbol location
    by_cases taken : symbol.name ≠ blankName ∧ (table.findIn? id symbol.name).isSome
    · rw [declareInPlace_fails taken.1 taken.2]
      exact arena
    · rw [declareInPlace_stores taken]
      exact arena.insert id symbol
  cases act with
  | enter kind => exact arena.enter kind
  | exit => exact arena.exit
  | resume id => exact arena.resume id
  | declare symbol location => exact declared table.current symbol location
  | declareIn id symbol location => exact declared id symbol location

theorem LedTo.arena (led : LedTo before after) (arena : Arena before) : Arena after := by
  induction led with
  | refl => exact arena
  | step act _ _ ih => exact ih.run act

/-! ## What is kept -/

theorem extends_current (table : SymbolTable) (id : Nat) : Extends table { table with current := id } :=
  ⟨Nat.le_refl _, fun _ scope found => ⟨scope, found, rfl, rfl⟩, fun _ _ found => found, fun _ _ _ found => found,
    fun _ used => used⟩

theorem extends_declareInPlace (old : id < table.scopes.size) (symbol : Symbol) (location : Location) :
    Extends table (SymbolTable.declareInPlace id symbol location table).2 := by
  by_cases taken : symbol.name ≠ blankName ∧ (table.findIn? id symbol.name).isSome
  · rw [declareInPlace_fails taken.1 taken.2]
    exact Extends.refl table
  · rw [declareInPlace_stores taken]
    refine extends_insert old fun named => ?_
    simpa [named] using taken

theorem Arena.extends (arena : Arena table) (act : TableAct) (fits : act.Fits table) :
    Extends table (act.run table) := by
  cases act with
  | enter kind => exact extends_enter kind
  | exit => exact extends_current table _
  | resume id =>
      simp only [TableAct.run, SymbolTable.resume]
      split
      · exact extends_current table id
      · exact Extends.refl table
  | declare symbol location => exact extends_declareInPlace arena.current symbol location
  | declareIn id symbol location => exact extends_declareInPlace fits symbol location

theorem LedTo.extends (led : LedTo before after) (arena : Arena before) : Extends before after := by
  induction led with
  | refl => exact Extends.refl before
  | step act earlier fits ih => exact ih.trans ((earlier.arena arena).extends act fits)

/-! ## What names mean -/

theorem chain_parent (inside : table.parent? id = some number) (arena : Arena table) :
    table.chain id = id :: table.chain number := by
  obtain ⟨scope, found, first⟩ := Option.bind_eq_some_iff.mp inside
  obtain ⟨rest, same⟩ := List.head?_eq_some_iff.mp first
  rw [(arena.around id scope found number rest same).2, SymbolTable.chain, found]

theorem chain_outermost (outermost : table.parent? id = none) : table.chain id = [id] := by
  unfold SymbolTable.chain
  cases found : table.scopes[id]? with
  | none => rfl
  | some scope =>
      simp only [SymbolTable.parent?, found, Option.bind_some, List.head?_eq_none_iff] at outermost
      simp [outermost]

/-- Scopes around have smaller ids, so the search for a name comes to an end. -/
theorem Arena.nearest (arena : Arena table) (name : String) (id : Nat) :
    Nearest table name id ((table.chain id).findSome? fun id => table.findIn? id name) := by
  induction id using Nat.strong_induction_on with
  | _ id ih =>
    cases here : table.findIn? id name with
    | some number =>
        have first : (table.chain id).head? = some id := by
          unfold SymbolTable.chain
          split <;> rfl
        obtain ⟨rest, same⟩ := List.head?_eq_some_iff.mp first
        rw [same, List.findSome?_cons, here]
        exact .here here
    | none =>
        cases inside : table.parent? id with
        | none =>
            rw [chain_outermost inside, List.findSome?_cons, here]
            exact .nowhere here inside
        | some outer =>
            rw [chain_parent inside arena, List.findSome?_cons, here]
            exact .around here inside (ih outer (arena.parent_lt inside))

theorem Arena.entry (arena : Arena table) (found : table.findIn? id name = some number) :
    name ≠ blankName ∧ ∃ symbol, table.symbols[number]? = some symbol ∧ symbol.name = name := by
  obtain ⟨scope, there, has⟩ := Option.bind_eq_some_iff.mp found
  obtain ⟨front, back, same, _⟩ := List.lookup_eq_some_iff.mp has
  exact arena.keyed id scope there (name, number) (by simp [same])

theorem Arena.ordered (arena : Arena table) : Ordered table where
  current := arena.current
  parents _ _ inside := arena.parent_lt inside
  named _ _ _ found := (arena.entry found).2
  blank _ := Option.eq_none_iff_forall_ne_some.mpr fun _ found => (arena.entry found).1 rfl
  nearest name := arena.nearest name table.current

/-- Whatever is done to an empty table keeps it in order; declarations add one symbol or change nothing, and what is
stored or bound stays so. -/
theorem tables_keep_order (led : LedTo .empty table) :
    Ordered table ∧ (∀ id < table.scopes.size, ∀ symbol location, DeclareLaws table id symbol location) ∧
      ∀ later, LedTo table later → Extends table later := by
  have arena := led.arena arena_empty
  exact ⟨arena.ordered, fun _ old symbol location => declareLaws old symbol location,
    fun _ onward => onward.extends arena⟩

/-- A block gets a blank name, a name of the package around it and, when it was left, one more name. -/
theorem left_block_in_order :
    ∃ table, LedTo .empty table ∧ table.lookup? "x" = some 0 ∧ table.findIn? 2 "x" = some 2 ∧
      table.findIn? 2 "y" = some 3 ∧
      Ordered table ∧ (∀ id < table.scopes.size, ∀ symbol location, DeclareLaws table id symbol location) ∧
        ∀ later, LedTo table later → Extends table later := by
  let declare (name : String) : TableAct := .declare ⟨name, .var, some .int⟩ ⟨1, 1⟩
  have outside := LedTo.step (declare "x") (.step (.enter (.package "main")) (@LedTo.refl .empty) trivial)
    trivial
  have inside := LedTo.step (declare "x") (.step (declare blankName) (.step (.enter .block) outside trivial) trivial)
    trivial
  have led := LedTo.step (.declareIn 2 ⟨"y", .const, some .int⟩ ⟨2, 1⟩)
    (.step .exit (.step (declare "x") inside trivial) trivial) (by change 2 < _; decide)
  exact ⟨_, led, by decide, by decide, by decide, tables_keep_order led⟩

end Lexical

end MiniGo
