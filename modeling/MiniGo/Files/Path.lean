/-!
# Paths of files

A path is a text whose names stand between slashes. Empty names and `.` name the directory they stand
in, and are skipped except for a `.` at the start of a path that is not absolute.
-/

namespace MiniGo.Path

def isAbsolute (path : String) : Bool := path.startsWith "/"

/-- A path inside a directory; an absolute path stays what it is. -/
def join (directory inner : String) : String :=
  if isAbsolute inner || directory.isEmpty then inner
  else if directory.endsWith "/" then directory ++ inner
  else directory ++ "/" ++ inner

def names (path : String) : List String := (path.toList.splitOn '/').map String.ofList

def isSkipped (name : String) : Bool := name.isEmpty || name == "."

/-- The names without those that are skipped at the end; `first` is how many at the start are
kept in any case. -/
def trimmed (first : Nat) (names : List String) : List String :=
  names.take first ++ ((names.drop first).reverse.dropWhile isSkipped).reverse

/-- How many names at the start of a path are never skipped: the one that makes it absolute, or a
`.`. -/
def leading : List String → Nat
  | "" :: _ :: _ => 1
  | "." :: _ => 1
  | _ => 0

/-- The directory that a path names something in: the path without its last name. The root and the
empty path have none. -/
def parent? (path : String) : Option String :=
  let all := names path
  let first := leading all
  match (trimmed first all).drop first with
  | [] => if all.head? == some "." then some "" else none
  | _ :: _ =>
      let rest := trimmed first (trimmed first all).dropLast
      some (if rest == [""] then "/" else "/".intercalate rest)

/-- The last name of a path ends like a source file: some name, then `.go`. -/
def isSourceName (name : String) : Bool := name.endsWith ".go" && name != ".go"

end MiniGo.Path
