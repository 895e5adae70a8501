import MiniGo.Command

/-!
# The program

Reads the files that a command needs, and prints the outcome of the command.
-/

open MiniGo

/-- The text of a file with its path, if it can be read. -/
def readNamed (path : String) : IO (List (String × String)) := do
  try
    let text ← IO.FS.readFile path
    pure [(path, text)]
  catch _ => pure []

def readPackage (directory : String) : IO (List (String × String)) := do
  try
    let place := (← IO.currentDir) / directory
    let mut found := []
    for entry in ← place.readDir do
      if Path.isSourceName entry.fileName then
        found := found ++ (← readNamed (Path.join directory entry.fileName))
    pure found
  catch _ => pure []

/-- The files of all packages below a root that some texts import, directly or through others. -/
def readImports (root : String) (texts : List String) : IO (List (String × String)) := do
  let mut pending := texts.flatMap Command.importsOf
  let mut seen := []
  let mut found := []
  repeat
    match pending with
    | [] => break
    | path :: rest =>
        pending := rest
        if !seen.contains path then
          seen := path :: seen
          let files ← readPackage (Path.join root path)
          found := found ++ files
          pending := pending ++ files.flatMap fun (_, text) => Command.importsOf text
  pure found

def readFiles (command : Command) : IO FileTree := do
  let found ← command.named.mapM readNamed
  let found := found.flatten
  match command.root? (FileTree.ofList found) with
  | none => pure (FileTree.ofList found)
  | some root => do
      let imported ← readImports root (found.map (·.2))
      pure (FileTree.ofList (found ++ imported))

def main (args : List String) : IO UInt32 := do
  let outcome ← match Command.parse? args with
    | none => pure (Command.outcome FileTree.empty args)
    | some command => do
        let files ← readFiles command
        pure (Command.outcome files args)
  let stdout ← IO.getStdout
  stdout.putStr outcome.stdout
  stdout.flush
  IO.eprint outcome.stderr
  pure (UInt32.ofNat outcome.exit)
