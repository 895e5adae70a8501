import MiniGo.Eval.Evaluate
import MiniGo.Package.Initialization
import MiniGo.Settings

/-!
# Sessions

A session is a machine with the packages that were loaded into it. Loading a package binds its
functions and runs the initializers of its variables; afterwards its functions can be called any
number of times. A session goes on after an error, with everything that was printed and assigned
before it.
-/

namespace MiniGo

structure Session where
  settings : Settings
  /-- A bound on the length of a call. -/
  fuel : Nat
  /-- The loaded packages by their paths, the latest first. -/
  packages : List (String × PackageRef)
  entryPackage : String
  /-- The scope of the predeclared names. -/
  outermost : Env
  machine : Machine

/-- A step of a session, which keeps its state when it fails. -/
abbrev Run := EStateM Error Session

def Halt.toError : Halt → Error
  | .fault error => .runtime error
  | .exhausted => .exhausted

namespace Session

def mainPath : String := "main"

def predeclared : List (String × Value) :=
  [("true", .bool true), ("false", .bool false), (Builtin.len.name, .builtin .len)]

def formatting : List (String × Value) :=
  Builtin.formatting.map fun function => (function.name, .builtin function)

/-- Binds constants in the innermost scope of an environment. -/
def bindConstants (store : Store) (env : Env) (constants : List (String × Value)) : Store :=
  constants.foldl (fun store (name, value) => store.bind env name ⟨value, false⟩) store

def openConstants (store : Store) (constants : List (String × Value)) : Env × Store :=
  let (env, store) := store.child []
  (env, bindConstants store env constants)

/-- A reference to a package whose names are in the innermost scope of an environment. -/
def refer (name path : String) (env : Env) : PackageRef := ⟨name, path, env.headD 0⟩

/-- A session in which only the formatting package is loaded. -/
def start (fuel : Nat) (settings : Settings) (output : Output) : Session :=
  let machine := Machine.initial output
  let (outermost, store) := openConstants machine.store predeclared
  let (inner, store) := openConstants store formatting
  let path := Builtin.formattingPath
  { settings
    fuel
    packages := [(path, refer path path inner)]
    entryPackage := mainPath
    outermost
    machine := { machine with store } }

def ample : Nat := UInt64.size / 4

/-! ## Steps -/

/-- Runs a computation on the machine of a session; `place` says where its failure belongs. -/
def perform (place : Error → Error) (action : Eval α) : Run α := fun session =>
  match action session.machine with
  | .ok value machine => .ok value { session with machine }
  | .error halt machine => .error (place halt.toError) { session with machine }

def bindImports (file : SourceFile) (env : Env) : List Import → Run Unit
  | [] => pure ()
  | found :: rest => do
      -- A program is loaded in the order of its imports, so the package is there.
      match (← get).packages.lookup found.path with
      | none =>
          throw (.inFile file.path (.resolution (.packageNotFound found.path "loaded packages")))
      | some package =>
          let name := found.alias?.getD package.name
          perform id (Eval.bind env name (.package package) false)
      bindImports file env rest

/-- Opens the scopes of files inside the scope of their package, and gives them in order. -/
def openFiles (env : Env) : List SourceFile → Run (List Env)
  | [] => pure []
  | file :: rest => do
      let inner ← perform id (Eval.openScope env)
      bindImports file inner file.program.imports
      let others ← openFiles env rest
      pure (inner :: others)

/-- Binds functions of a file in the scope of the package; they see the scope of the file. -/
def bindFunctions (env inner : Env) : List (String × FunctionLiteral) → Run Unit
  | [] => pure ()
  | (name, literal) :: rest => do
      let function ← perform id (Eval.makeClosure name literal inner)
      perform id (Eval.bind env name function false)
      bindFunctions env inner rest

def bindFiles (env : Env) : List (SourceFile × Env) → Run Unit
  | [] => pure ()
  | (file, inner) :: rest => do
      bindFunctions env inner file.program.functions
      bindFiles env rest

/-- Runs declarations of a package: values are computed in the scope of the file and bound in that of
the package. -/
def runInitializers (package : Package) (env : Env) (inner : List Env) : List Initializer → Run Unit
  | [] => pure ()
  | initializer :: rest => do
      let session ← get
      let here := (inner[initializer.file]?).getD env
      perform (.inFile (package.filePath initializer.file))
        (Eval.declare session.settings.maxCallDepth session.fuel here env initializer.decl)
      runInitializers package env inner rest

/-- Binds the names of a package, all of whose imports are loaded, and gives the scopes they are in. -/
def bindPackage (package : Package) : Run Env := do
  let session ← get
  let env ← perform id (Eval.openScope session.outermost)
  -- All scopes and all functions are there before the first initializer runs; a function may use what
  -- is declared in any file.
  let inner ← openFiles env package.files
  bindFiles env (package.files.zip inner)
  match initializationOrder package with
  -- Checking the package has met this error before; a session that loads without checking meets it
  -- here.
  | .error error => throw error
  | .ok order => runInitializers package env inner order
  pure env

def load (package : Package) : Run Unit := do
  let env ← bindPackage package
  modify fun session =>
    { session with
      packages := (package.path, refer package.name package.path env) :: session.packages }

def loadAll : List Package → Run Unit
  | [] => pure ()
  | package :: rest => do
      load package
      loadAll rest

def setEntryPackage (path : String) : Run Unit :=
  modify fun session => { session with entryPackage := path }

/-- The function of a loaded package that can be called from outside: a name of its top level that
holds a function of the language. -/
def function? (session : Session) (path name : String) : Option Value :=
  match session.packages.lookup path with
  | none => none
  | some package =>
      match session.machine.store.getLocal? [package.scope] name with
      | some (.function closure) => some (.function closure)
      | _ => none

/-- Calls a function of a loaded package, and gives all of its results. -/
def invoke (path name : String) (args : List Value) : Run (List Value) := do
  let session ← get
  match session.function? path name with
  | none => throw (.resolution (.missingEntry path name))
  | some function =>
      perform id do
        -- A call from outside starts with no call active.
        modify fun machine => { machine with calls := .empty }
        Eval.apply session.settings.maxCallDepth session.fuel function args Location.nowhere

/-- Calls a function of a loaded package, and packs its results into one value. -/
def call (path name : String) (args : List Value) : Run Value := do
  let results ← invoke path name args
  pure (Value.ofResults results)

def runMain : Run Unit := do
  let session ← get
  let _ ← invoke session.entryPackage session.settings.entry []
  pure ()

/-- The text printed since it was last taken. -/
def takeOutput : Run String := do
  let session ← get
  let (text, output) := session.machine.output.take
  set { session with machine := { session.machine with output } }
  pure text

end Session

end MiniGo
