import MiniGo.Error
import MiniGo.Package
import MiniGo.Package.FreeNames

/-!
# The order of initialization

The declarations of a package are initialized one after another. A declaration depends on those that
declare a free name of its values, following the bodies of the functions of the package that it
names. The next declaration is always the earliest one, across files in order, all of whose
dependencies are initialized; when there is none, a chain of dependencies leads back to its start and
is reported.
-/

namespace MiniGo

/-- A declaration of a package and the position of its file. -/
structure Initializer where
  file : Nat
  decl : ValueDecl

/-- The first name that a declaration binds, for messages. -/
def ValueDecl.title (decl : ValueDecl) : String := decl.bound.head?.getD blankName

namespace Initialization

/-- What a name of a package stands for: a declaration, by its position, or a function. -/
inductive Entity where
  | value (index : Nat)
  | function (literal : FunctionLiteral)

def initializers (package : Package) : List Initializer :=
  package.files.zipIdx.flatMap fun (file, index) =>
    file.program.valueDecls.map fun decl => ⟨index, decl⟩

/-- The names that declarations introduce, with what they stand for; `next` is the position of the
first value declaration among all of the package. -/
def entitiesFrom (next : Nat) : List Decl → List (String × Entity)
  | [] => []
  | .function name literal :: rest => (name, .function literal) :: entitiesFrom next rest
  | .values decl :: rest =>
      decl.bound.map (fun name => (name, .value next)) ++ entitiesFrom (next + 1) rest

/-- The names of a package; of two equal names the first counts. -/
def entities (package : Package) : List (String × Entity) :=
  entitiesFrom 0 (package.files.flatMap (·.program.declarations))

/-- The free names of the functions of a package, by the names of the functions. -/
def functionNames (table : List (String × Entity)) : List (String × List String) :=
  table.filterMap fun (name, entity) =>
    match entity with
    | .function literal => some (name, (FreeNames.ofFunction [] literal).eraseDups)
    | .value _ => none

/-- The declarations that names lead to, following functions; `visited` are the functions followed
so far and `reached` the declarations found so far. Every function is followed once, so `fuel` is
enough when it is above the number of names in all. -/
def reach (table : List (String × Entity)) (calls : List (String × List String)) :
    Nat → List String → List Nat → List String → List Nat
  | 0, _, reached, _ => reached
  | _, _, reached, [] => reached
  | fuel + 1, visited, reached, name :: pending =>
      match table.lookup name with
      -- No name of the package: an import, a predeclared name, or none at all.
      | none => reach table calls fuel visited reached pending
      | some (.value index) =>
          let reached := if reached.contains index then reached else index :: reached
          reach table calls fuel visited reached pending
      -- A function is followed into its body, once; a function that calls itself ends here.
      | some (.function _) =>
          if visited.contains name then reach table calls fuel visited reached pending
          else
            let names := (calls.lookup name).getD []
            reach table calls fuel (name :: visited) reached (names ++ pending)

/-- The declarations that a declaration depends on, by their positions. -/
def dependenciesOf (table : List (String × Entity)) (calls : List (String × List String))
    (decl : ValueDecl) : List Nat :=
  let names := (FreeNames.ofExprs [] decl.values).eraseDups
  let total := (calls.flatMap (·.2)).length + names.length
  reach table calls (total + 1) [] [] names

def dependencies (package : Package) : List (List Nat) :=
  let table := entities package
  let calls := functionNames table
  (initializers package).map fun initializer => dependenciesOf table calls initializer.decl

def isDone (done : Array Bool) (index : Nat) : Bool := done.getD index false

/-- The earliest declaration that is not initialized and whose dependencies are. -/
def nextReady (deps : List (List Nat)) (done : Array Bool) : Option Nat :=
  (deps.zipIdx.find? fun (needed, index) =>
    -- The list is in the order of the source, so the first that fits is the earliest.
    !isDone done index && needed.all (isDone done)).map (·.2)

/-- The order in which declarations are initialized, or those that were when none is ready. -/
def arrange (deps : List (List Nat)) : Nat → Array Bool → Except (Array Bool) (List Nat)
  | 0, _ => .ok []
  | left + 1, done =>
      match nextReady deps done with
      | none => .error done
      | some index => do
          let rest ← arrange deps left (done.setIfInBounds index true)
          pure (index :: rest)

/-- The least declaration that one depends on and that is not initialized, or itself. -/
def firstPending (deps : List (List Nat)) (done : Array Bool) (current : Nat) : Nat :=
  let pending := ((deps[current]?).getD []).filter fun index => !isDone done index
  (pending.min?).getD current

/-- Follows pending dependencies until one comes back; the path so far comes in reverse. The part
from its first occurrence on is a cycle. -/
def walk (deps : List (List Nat)) (done : Array Bool) : Nat → List Nat → Nat → List Nat
  | 0, path, _ => path.reverse
  | fuel + 1, path, current =>
      -- What came before the first occurrence leads into the cycle and is no part of it.
      if path.contains current then path.reverse.dropWhile (· != current)
      else walk deps done fuel (current :: path) (firstPending deps done current)

/-- A cycle of dependencies among declarations that are not initialized. -/
def cycle (deps : List (List Nat)) (done : Array Bool) : List Nat :=
  let start := ((List.range deps.length).find? fun index => !isDone done index).getD 0
  -- One step more than there are declarations, so one of them comes back.
  walk deps done (deps.length + 1) [] start

/-- The report of a cycle: the names around it, the first one again at the end. -/
def cycleError (package : Package) (items : List Initializer) (found : List Nat) : Error :=
  let around := found.filterMap fun index => items[index]?
  match around with
  | [] => .resolution (.initializationCycle [] Location.nowhere)
  | first :: _ =>
      let names := around.map (·.decl.title) ++ [first.decl.title]
      .inFile (package.filePath first.file) (.resolution (.initializationCycle names first.decl.location))

end Initialization

/-- The declarations of a package in the order of their initialization. -/
def initializationOrder (package : Package) : Except Error (List Initializer) :=
  let items := Initialization.initializers package
  let deps := Initialization.dependencies package
  match Initialization.arrange deps items.length (Array.replicate items.length false) with
  | .ok order => .ok (order.filterMap fun index => items[index]?)
  | .error done => .error (Initialization.cycleError package items (Initialization.cycle deps done))

end MiniGo
