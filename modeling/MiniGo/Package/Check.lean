import MiniGo.Check.Scoping
import MiniGo.Package.Initialization

/-!
# Checking packages

A package is checked against the interfaces of the packages it may import, and a package that passes
has an interface of its own. Names of functions come first, then the imports of each file, then the
variables and constants in the order of their initialization, and last the bodies of the functions,
so that everything a piece of code can use is declared when it is checked.

The first failure in this order is the outcome; failures in code name the file they are in.
-/

namespace MiniGo

namespace Package

/-- Checks of a package, whose failures may name a file. -/
abbrev Checking := StateT SymbolTable (Except Error)

def checkIn (path : String) (check : Check α) : Checking α := fun table =>
  inFile path <|
    match check table with
    | .ok outcome => .ok outcome
    | .error error => .error (.resolution error)

/-- Declares the functions of a file in the scope of the package. -/
def declareFunctions (scope : Nat) : List (String × FunctionLiteral) → Check Unit
  | [] => pure ()
  | (name, literal) :: rest => do
      Check.signature literal.signature literal.location
      Check.declareIn scope ⟨name, .function, some (.func literal.signature.type)⟩ literal.location
      declareFunctions scope rest

def declareImports (imports : Interfaces) : List Import → Check Unit
  | [] => pure ()
  | found :: rest => do
      match imports.lookup found.path with
      | none => Check.fail (.packageNotFound found.path "loaded packages")
      | some interface =>
          let name := found.alias?.getD interface.name
          Check.declare ⟨name, .package found.path, none⟩ found.location
      declareImports imports rest

/-- Opens the scopes of files inside the scope of the package, and gives them in order. -/
def openFiles (imports : Interfaces) (scope : Nat) : List SourceFile → Checking (List Nat)
  | [] => pure []
  | file :: rest => do
      -- Each file opens inside the package, not inside the file before it.
      modify fun table => (table.resume scope).enter (.file file.path)
      let opened := (← get).current
      checkIn file.path (declareImports imports file.program.imports)
      let others ← openFiles imports scope rest
      pure (opened :: others)

/-- Checks declarations of a package in the scopes of their files. -/
def checkInitializers (imports : Interfaces) (package : Package) (scope : Nat) (files : List Nat) :
    List Initializer → Checking Unit
  | [] => pure ()
  | initializer :: rest => do
      modify (·.resume ((files[initializer.file]?).getD scope))
      -- The values see the imports of their file; the names go into the scope of the package.
      checkIn (package.filePath initializer.file) (Check.valueDecl imports scope initializer.decl)
      checkInitializers imports package scope files rest

def checkFunctions (imports : Interfaces) (scope : Nat) :
    List (String × FunctionLiteral) → Check Unit
  | [] => pure ()
  | (name, literal) :: rest => do
      modify (·.resume scope)
      Check.function imports name false literal
      checkFunctions imports scope rest

def checkBodies (imports : Interfaces) : List (SourceFile × Nat) → Checking Unit
  | [] => pure ()
  | (file, scope) :: rest => do
      checkIn file.path (checkFunctions imports scope file.program.functions)
      checkBodies imports rest

/-- The interface of a package whose names are declared in a scope. -/
def interfaceOf (package : Package) (table : SymbolTable) (scope : Nat) : Interface where
  name := package.name
  members := (table.symbolsIn scope).map fun symbol => (symbol.name, ⟨symbol.kind, symbol.type?⟩)

def checking (imports : Interfaces) (package : Package) : Checking Interface := do
  modify (·.enter (.package package.name))
  let scope := (← get).current
  package.files.forM fun file => checkIn file.path (declareFunctions scope file.program.functions)
  let files ← openFiles imports scope package.files
  -- A cycle is found before any value is checked, and behind all imports.
  let order ← initializationOrder package
  checkInitializers imports package scope files order
  checkBodies imports (package.files.zip files)
  pure (package.interfaceOf (← get) scope)

def check (imports : Interfaces) (package : Package) : Except Error Interface := do
  let (interface, _) ← checking imports package SymbolTable.initial
  pure interface

end Package

end MiniGo
