import MiniGo.Error
import MiniGo.Tree
import MiniGo.Value.Builtins

/-!
# Symbols and their scopes

A symbol is what a name was declared to be. Symbols live in scopes, and a scope knows the scopes
around it, the innermost first. Scopes are numbered as they are entered and are never removed, so a
scope that was left can be resumed or declared into later; symbols are numbered as they are declared.

`SymbolTable.lookup?` is the symbol that a name means in the current scope.

A table also knows where in a program names were looked up and which scope each of them was found in,
and how many values expressions were taken to give. Those are propositions, which no check depends on.
-/

namespace MiniGo

/-- What a name was declared to be. -/
inductive SymbolKind where
  | var
  | const
  | function
  | parameter
  | package (path : String)
  | builtin
deriving DecidableEq, Repr

def SymbolKind.isAssignable : SymbolKind → Bool
  | .var | .parameter => true
  | _ => false

/-- A declared name, with its type where that is known before running. The type of a function gives
the number of its results. -/
structure Symbol where
  name : String
  kind : SymbolKind
  type? : Option Ty

inductive BlockKind where
  | outermost
  | package (name : String)
  | file (path : String)
  | function (name : String)
  | block
  | conditional
  | loop
  | switch
  | case
deriving DecidableEq, Repr

/-- A scope: what opened it, the scopes around it, and its names with the numbers of their symbols. -/
structure SymbolScope where
  kind : BlockKind
  outer : List Nat
  names : List (String × Nat)

def SymbolScope.find? (scope : SymbolScope) (name : String) : Option Nat := scope.names.lookup name

/-- A name that code reads or assigns: where it stands, the scopes around it, the innermost first,
and how many of them are passed before its symbol is found. -/
structure Use where
  name : String
  location : Location
  scopes : List Nat
  depth : Nat

/-- All scopes and symbols of a package, and the scope that is open. -/
structure SymbolTable where
  scopes : Array SymbolScope
  symbols : Array Symbol
  current : Nat
  /-- The names that were looked up. -/
  uses : Use → Prop
  /-- The expressions whose values were counted, each with what was known then. -/
  counts : Expr → Option Nat → Prop

namespace SymbolTable

/-- A table with one scope around all others and without symbols. -/
def empty : SymbolTable := ⟨#[⟨.outermost, [], []⟩], #[], 0, fun _ => False, fun _ _ => False⟩

/-- A scope and the scopes around it, the innermost first. -/
def chain (table : SymbolTable) (id : Nat) : List Nat :=
  match table.scopes[id]? with
  | some scope => id :: scope.outer
  | none => [id]

def parent? (table : SymbolTable) (id : Nat) : Option Nat :=
  (table.scopes[id]?).bind (·.outer.head?)

def enter (table : SymbolTable) (kind : BlockKind) : SymbolTable :=
  { table with
    scopes := table.scopes.push ⟨kind, table.chain table.current, []⟩
    current := table.scopes.size }

/-- Goes back to the scope around the current one; the outermost scope stays open. -/
def exit (table : SymbolTable) : SymbolTable :=
  { table with current := (table.parent? table.current).getD table.current }

def resume (table : SymbolTable) (id : Nat) : SymbolTable :=
  if id < table.scopes.size then { table with current := id } else table

def findIn? (table : SymbolTable) (id : Nat) (name : String) : Option Nat :=
  (table.scopes[id]?).bind (·.find? name)

def lookupCurrent? (table : SymbolTable) (name : String) : Option Nat :=
  table.findIn? table.current name

/-- The symbol that a name means: the one in the innermost scope that has the name. -/
def lookup? (table : SymbolTable) (name : String) : Option Nat :=
  (table.chain table.current).findSome? fun id => table.findIn? id name

/-- The symbol that a name means, with what is known of it. -/
def symbol? (table : SymbolTable) (name : String) : Option Symbol :=
  (table.lookup? name).bind (table.symbols[·]?)

/-- How many scopes are passed before the symbol of a name is found. -/
def depthOf (table : SymbolTable) (name : String) : Nat :=
  (table.chain table.current).findIdx fun id => (table.findIn? id name).isSome

@[inline] def used (table : SymbolTable) (name : String) (location : Location) : SymbolTable :=
  { table with uses := fun use =>
      table.uses use ∨ use = ⟨name, location, table.chain table.current, table.depthOf name⟩ }

/-- Keeps in mind how many values an expression gives, as far as that is known. -/
@[inline] def counted (table : SymbolTable) (expr : Expr) (count? : Option Nat) : SymbolTable :=
  { table with counts := fun other found? =>
      table.counts other found? ∨ (other = expr ∧ found? = count?) }

/-- Adds a symbol to a scope; the blank name gets a symbol but is not bound. -/
def insert (table : SymbolTable) (id : Nat) (symbol : Symbol) : SymbolTable :=
  let number := table.symbols.size
  { table with
    -- The symbol gets its number even if no name leads to it.
    symbols := table.symbols.push symbol
    scopes :=
      if symbol.name == blankName then table.scopes
      else table.scopes.modify id fun scope =>
        { scope with names := (symbol.name, number) :: scope.names } }

/-- Declares a symbol in a scope that does not have its name yet, and gives its number. -/
def declareIn (table : SymbolTable) (id : Nat) (symbol : Symbol) (location : Location) :
    Except ResolutionError (Nat × SymbolTable) :=
  if symbol.name != blankName && (table.findIn? id symbol.name).isSome then
    .error (.redeclared symbol.name location)
  else .ok (table.symbols.size, table.insert id symbol)

def declare (table : SymbolTable) (symbol : Symbol) (location : Location) :
    Except ResolutionError (Nat × SymbolTable) :=
  table.declareIn table.current symbol location

def symbolsIn (table : SymbolTable) (id : Nat) : List Symbol :=
  match table.scopes[id]? with
  | some scope => scope.names.filterMap fun (_, number) => table.symbols[number]?
  | none => []

def predeclared : List Symbol :=
  [⟨"true", .const, some .bool⟩, ⟨"false", .const, some .bool⟩,
    ⟨Builtin.len.name, .builtin, some (.func Builtin.len.type)⟩]

/-- A table whose outermost scope holds the predeclared names. -/
def initial : SymbolTable := predeclared.foldl (fun table symbol => table.insert 0 symbol) empty

/-! ## Lemmas -/

theorem lookup?_eq_lookupCurrent? {table : SymbolTable} {name : String} {id : Nat}
    (found : table.lookupCurrent? name = some id) : table.lookup? name = some id := by
  unfold lookup? chain
  unfold lookupCurrent? at found
  split <;> simp [found]

theorem findSome?_eq_findIdx {found : Nat → Option Nat} (chain : List Nat) :
    chain.findSome? found = (chain[chain.findIdx fun id => (found id).isSome]?).bind found := by
  induction chain with
  | nil => rfl
  | cons id chain ih =>
      rw [List.findSome?_cons, List.findIdx_cons]
      cases here : found id with
      | none => simpa [here] using ih
      | some number => simp [here]

/-- A name means the symbol in the scope that is `depthOf` scopes further out. -/
theorem lookup?_eq_depthOf (table : SymbolTable) (name : String) :
    table.lookup? name
      = ((table.chain table.current)[table.depthOf name]?).bind fun id => table.findIn? id name :=
  findSome?_eq_findIdx (table.chain table.current)

theorem declareIn_blank (table : SymbolTable) (id : Nat) (kind : SymbolKind) (type? : Option Ty)
    (location : Location) :
    table.declareIn id ⟨blankName, kind, type?⟩ location
      = .ok (table.symbols.size, table.insert id ⟨blankName, kind, type?⟩) := by
  simp [declareIn]

theorem symbols_insert (table : SymbolTable) (id : Nat) (symbol : Symbol) :
    (table.insert id symbol).symbols = table.symbols.push symbol := rfl

end SymbolTable

end MiniGo
