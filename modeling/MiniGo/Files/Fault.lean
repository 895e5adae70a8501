/-!
# Files that cannot be read

Why a path has no file to read or no directory to list, in the words of the operating system.
-/

namespace MiniGo

/-- Why a file or a directory could not be read. -/
inductive FileFault where
  | missing
  | notDirectory
  | isDirectory
deriving DecidableEq, Repr

/-- The message about a file or a directory that could not be read. -/
def FileFault.message : FileFault → String
  | .missing => "No such file or directory (os error 2)"
  | .notDirectory => "Not a directory (os error 20)"
  | .isDirectory => "Is a directory (os error 21)"

end MiniGo
