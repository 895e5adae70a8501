import MiniGo.Files.FileTree
import MiniGo.Package
import MiniGo.Tree.Parser
import MiniGo.Value.Builtins

/-!
# Workspaces

A workspace holds the packages that were read so far. A package that is missing is read from the
directory of its import path below the source root, if there is a source root. What was read before a
failure is kept.

`Workspace.resolve` gives a package and everything it imports, each package behind all that it
imports. Packages are visited depth first, the imports of a package in the order of its files, and a
package that is met while it is being visited is an import cycle.
-/

namespace MiniGo

/-- The packages read so far, and where others are looked for. -/
structure Workspace where
  root? : Option String
  packages : List Package

/-- A step that reads packages, and keeps those it read when it fails. -/
abbrev Loading := EStateM Error Workspace

namespace Workspace

def empty (root? : Option String) : Workspace := ⟨root?, []⟩

def find? (workspace : Workspace) (path : String) : Option Package :=
  workspace.packages.find? (·.path == path)

/-- Adds a file to a package, which is made if there is none. The files of a package agree on its
name. -/
def addFile (workspace : Workspace) (path : String) (file : SourceFile) :
    Except Error Workspace :=
  match workspace.find? path with
  | none =>
      let package : Package := ⟨file.program.package, path, [file]⟩
      .ok { workspace with packages := workspace.packages ++ [package] }
  | some package =>
      if package.name = file.program.package then
        let extended := { package with files := package.files ++ [file] }
        .ok { workspace with
          packages := workspace.packages.map fun other => if other.path == path then extended else other }
      else
        .error (.resolution (.packageMismatch package.name file.program.package path))

/-! ## Reading packages -/

/-- The outcome of a computation that reads nothing. -/
def ofExcept (result : Except Error α) : Loading α :=
  match result with
  | .ok value => pure value
  | .error error => throw error

def addSource (path filePath text : String) : Loading Unit := do
  let program ← ofExcept (inFile filePath (parseText text))
  -- A file that disagrees with the package is not kept; those before it are.
  let workspace ← ofExcept ((← get).addFile path ⟨filePath, program⟩)
  set workspace

def loadFile (files : FileTree) (path filePath : String) : Loading Unit :=
  match files.read? filePath with
  | some text => addSource path filePath text
  | none => throw (.inFile filePath (.unreadable (files.readFault filePath)))

def loadFiles (files : FileTree) (path : String) : List String → Loading Unit
  | [] => pure ()
  | filePath :: rest => do
      loadFile files path filePath
      loadFiles files path rest

/-- Adds the source files that are directly in a directory to a package, in the order of their
names. -/
def loadDirectory (files : FileTree) (path directory : String) : Loading Unit :=
  match files.fileNames? directory with
  | none => throw (.unreadable (files.listFault directory))
  | some names =>
      match names.filter Path.isSourceName with
      | [] => throw (.resolution (.packageNotFound path directory))
      | sources => loadFiles files path (sources.map (Path.join directory))

/-- Reads a package from its directory below the source root. -/
def loadFromRoot (files : FileTree) (path : String) : Loading Unit := do
  match (← get).root? with
  | none => throw (.resolution (.packageNotFound path "memory"))
  | some root =>
      let directory := Path.join root path
      if files.isDirectory directory then loadDirectory files path directory
      else throw (.resolution (.packageNotFound path directory))

/-! ## Resolving imports -/

/-- The paths that a package imports, in order; the formatting package is always there and does not
count. -/
def importsOf (workspace : Workspace) (path : String) : List String :=
  match workspace.find? path with
  | none => []
  | some package => (package.imports.map (·.path)).filter (· != Builtin.formattingPath)

/-- Visits a package: `visiting` are the packages being visited, the outermost first, and `done` are
the paths of those that are complete, in order. -/
def visit (files : FileTree) : Nat → List String → List String → String → Loading (List String)
  | 0, _, _, _ => throw .exhausted
  | fuel + 1, visiting, done, path =>
      if done.contains path then pure done
      else if visiting.contains path then
        throw (.resolution (.importCycle (visiting.dropWhile (· != path) ++ [path])))
      else do
        -- The package is read when it is first met, so packages behind a failure are never read.
        if ((← get).find? path).isNone then loadFromRoot files path
        let imports := (← get).importsOf path
        let done ← imports.foldlM (visit files fuel (visiting ++ [path])) done
        -- All that it imports is in `done` by now.
        pure (done ++ [path])
termination_by structural fuel => fuel

/-- A bound on the number of packages that import each other in a chain: every import takes up some
text of a file. -/
def depthBound (files : FileTree) (workspace : Workspace) : Nat :=
  files.size + (workspace.packages.flatMap (·.imports)).length + 2

/-- A package and all that it imports, each package behind all that it imports. -/
def resolve (files : FileTree) (entry : String) : Loading (List Package) := do
  let order ← visit files (depthBound files (← get)) [] [] entry
  let workspace ← get
  pure (order.filterMap workspace.find?)

end Workspace

end MiniGo
