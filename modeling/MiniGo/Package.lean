import MiniGo.Tree

/-!
# Packages

A package is the files that were read under one import path; they agree on the name of the package.
-/

namespace MiniGo

/-- A parsed file and the path it was read from. -/
structure SourceFile where
  path : String
  program : Program

/-- The files of one import path. -/
structure Package where
  name : String
  path : String
  files : List SourceFile

def Package.imports (package : Package) : List Import :=
  package.files.flatMap (·.program.imports)

def Package.filePath (package : Package) (index : Nat) : String :=
  (package.files[index]?.map (·.path)).getD ""

end MiniGo
