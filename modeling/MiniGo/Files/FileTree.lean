import MiniGo.Files.Fault
import MiniGo.Files.Path

/-!
# Trees of files

A tree of files is the text of each file under the names that lead to it. Directories are the places
that files are under, and the place where paths start. A path is followed name by name, and each name
but the last has to be that of a directory.
-/

namespace MiniGo

/-- Files by the names that lead to them. -/
structure FileTree where
  files : List (List String × String)

namespace FileTree

def empty : FileTree := ⟨[]⟩

def isPlace (tree : FileTree) (place : List String) : Bool :=
  place.isEmpty || tree.files.any fun (names, _) => place.length < names.length && place.isPrefixOf names

/-- The place around a place; above the start of relative paths there are places of their own. -/
def above (place : List String) : List String :=
  match place.getLast? with
  | none => [".."]
  | some ".." => place ++ [".."]
  | some "/" => place
  | some _ => place.dropLast

/-- Follows one name from a place, which has to be a directory. -/
def follow (tree : FileTree) (place : List String) (name : String) : Option (List String) :=
  if tree.isPlace place then
    if Path.isSkipped name then some place
    else if name == ".." then some (above place)
    else some (place ++ [name])
  else none

/-- Where the names of a path lead, or the place on the way that is no directory. -/
def walk (tree : FileTree) : List String → List String → Except (List String) (List String)
  | place, [] => .ok place
  | place, name :: names =>
      match tree.follow place name with
      | some next => walk tree next names
      | none => .error place

def startOf (path : String) : List String := if Path.isAbsolute path then ["/"] else []

/-- Where a path leads; the empty path leads nowhere. -/
def place? (tree : FileTree) (path : String) : Option (List String) :=
  if path.isEmpty then none
  else (tree.walk (startOf path) (Path.names path)).toOption

def read? (tree : FileTree) (path : String) : Option String :=
  (tree.place? path).bind fun place => List.lookup place tree.files

def isDirectory (tree : FileTree) (path : String) : Bool :=
  match tree.place? path with
  | some place => tree.isPlace place
  | none => false

def nameIn? (place names : List String) : Option String :=
  match names.getLast? with
  | some name => if names.dropLast == place then some name else none
  | none => none

/-- The names of the files in the directory at a path, in the order of code points. -/
def fileNames? (tree : FileTree) (path : String) : Option (List String) :=
  match tree.place? path with
  | none => none
  | some place =>
      if tree.isPlace place then
        some ((tree.files.filterMap fun (names, _) => nameIn? place names).mergeSort
          fun a b => !(b < a))
      else none

/-! ## Faults -/

/-- What is wrong with a place that a path needs to be a directory. -/
def directoryFault (tree : FileTree) (place : List String) : FileFault :=
  if (List.lookup place tree.files).isSome then .notDirectory else .missing

/-- Why there is no file to read at a path. -/
def readFault (tree : FileTree) (path : String) : FileFault :=
  if path.isEmpty then .missing
  else match tree.walk (startOf path) (Path.names path) with
    | .error place => tree.directoryFault place
    | .ok place => if tree.isPlace place then .isDirectory else .missing

/-- Why there is no directory to list at a path. -/
def listFault (tree : FileTree) (path : String) : FileFault :=
  if path.isEmpty then .missing
  else match tree.walk (startOf path) (Path.names path) with
    | .error place | .ok place => tree.directoryFault place

/-! ## Building trees -/

/-- The names that a path leads to when every directory on its way exists. -/
def namesOf (path : String) : List String :=
  (Path.names path).foldl
    (fun place name =>
      if Path.isSkipped name then place
      else if name == ".." then above place
      else place ++ [name])
    (startOf path)

/-- Adds a file at a path, unless there is one. -/
def add (tree : FileTree) (path text : String) : FileTree :=
  let names := namesOf path
  -- A path may lead to a file that is there under another spelling.
  if (List.lookup names tree.files).isSome then tree else ⟨tree.files ++ [(names, text)]⟩

/-- Files by their paths; of two at one place the first counts. -/
def ofList (files : List (String × String)) : FileTree :=
  files.foldl (fun tree (path, text) => tree.add path text) empty

def size (tree : FileTree) : Nat :=
  tree.files.foldl (fun total file => total + file.2.utf8ByteSize) 0

end FileTree

end MiniGo
