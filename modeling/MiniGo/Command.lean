import MiniGo.Build
import MiniGo.Tree.Outline
import MiniGo.Tree.Printer

/-!
# The command line

Four commands on files: run a program, list the tokens of a file, show its tree, and print it in
canonical form. What a command does depends on the files and its arguments only; its outcome is what
it prints and the code it exits with. What was printed before a failure stays printed.
-/

namespace MiniGo

inductive Command where
  | run (files : List String) (sourceRoot : Option String) (maxCallDepth : Option Nat)
      (config : Option String)
  | tokens (file : String)
  | tree (file : String) (asJson : Bool)
  | format (file : String)
deriving Repr

/-- What a command prints, and the code it exits with. -/
structure Outcome where
  exit : Nat
  stdout : String
  stderr : String

namespace Command

/-! ## Arguments -/

/-- The options of a command line. -/
inductive Flag where
  | sourceRoot
  | maxCallDepth
  | config
  | json
deriving DecidableEq, Repr

def Flag.spelling : Flag → String
  | .sourceRoot => "--src-root"
  | .maxCallDepth => "--max-call-depth"
  | .config => "--config"
  | .json => "--json"

def Flag.takesValue : Flag → Bool
  | .json => false
  | _ => true

/-- The option takes the path of a file or a directory. -/
def Flag.takesPath : Flag → Bool
  | .sourceRoot | .config => true
  | _ => false

def Flag.ofSpelling? (text : String) : Option Flag :=
  [Flag.sourceRoot, .maxCallDepth, .config, .json].find? (·.spelling == text)

/-- Arguments sorted into names of files and options with their values. -/
structure Arguments where
  files : List String
  flags : List (Flag × String)

def isFlag (text : String) : Bool := text.startsWith "-" && text != "-"

/-- An argument that asks for more log output, which has no effect here. -/
def isVerbose (text : String) : Bool :=
  text == "--verbose"
    || (text.startsWith "-" && text.length ≥ 2 && (text.toList.drop 1).all (· == 'v'))

def Arguments.addFile (file : String) (arguments : Arguments) : Arguments :=
  { arguments with files := file :: arguments.files }

/-- Adds an option, which may be given once. A path is not empty. -/
def Arguments.addFlag? (flag : Flag) (value : String) (arguments : Arguments) : Option Arguments :=
  if (arguments.flags.lookup flag).isSome || (flag.takesPath && value.isEmpty) then none
  else some { arguments with flags := (flag, value) :: arguments.flags }

/-- The files, if each is named by a path. -/
def Arguments.paths? (arguments : Arguments) : Option (List String) :=
  if arguments.files.all fun file => !file.isEmpty then some arguments.files else none

/-- The option at the start of an argument, and the value behind `=`. -/
def splitFlag (text : String) : String × Option String :=
  let characters := text.toList
  let spelling := String.ofList (characters.takeWhile (· != '='))
  match characters.dropWhile (· != '=') with
  | [] => (spelling, none)
  | _ :: value => (spelling, some (String.ofList value))

/-- Sorts the arguments of a command that takes some options. All that stands behind `--` names a
file. -/
def sort? (allowed : List Flag) : List String → Option Arguments
  | [] => some ⟨[], []⟩
  | text :: rest =>
      if text == "--" then some ⟨rest, []⟩
      else if isVerbose text then sort? allowed rest
      else if !isFlag text then (sort? allowed rest).map (·.addFile text)
      else do
        let (spelling, value?) := splitFlag text
        let flag ← Flag.ofSpelling? spelling
        if !allowed.contains flag then none
        else match flag.takesValue, value?, rest with
          -- A value stands behind the equals sign or in the next argument, which is no option.
          | true, some value, rest => (← sort? allowed rest).addFlag? flag value
          | true, none, value :: rest =>
              if isFlag value then none else (← sort? allowed rest).addFlag? flag value
          | false, none, rest => (← sort? allowed rest).addFlag? flag ""
          | _, _, _ => none

def depth? (text : String) : Option Nat :=
  let digits := if text.startsWith "+" then text.toList.drop 1 else text.toList
  if digits.isEmpty || !digits.all Char.isDigit then none
  else
    let depth := Json.valueOfDigits digits
    if depth < UInt64.size then some depth else none

def ofRunArguments? (arguments : Arguments) : Option Command := do
  let depth ← match arguments.flags.lookup Flag.maxCallDepth with
    | none => some none
    | some text => (depth? text).map some
  let files ← arguments.paths?
  if files.isEmpty then none
  else
    pure (.run files (arguments.flags.lookup Flag.sourceRoot) depth
      (arguments.flags.lookup Flag.config))

def Arguments.file? (arguments : Arguments) : Option String :=
  match arguments.paths? with
  | some [file] => some file
  | _ => none

def parse? : List String → Option Command
  | [] => none
  | name :: rest =>
      if isVerbose name then parse? rest
      else if name == "run" then do
        let arguments ← sort? [.sourceRoot, .maxCallDepth, .config] rest
        ofRunArguments? arguments
      else if name == "tokens" then do
        let arguments ← sort? [] rest
        arguments.file?.map .tokens
      else if name == "ast" then do
        let arguments ← sort? [.json] rest
        let file ← arguments.file?
        pure (.tree file (arguments.flags.lookup Flag.json).isSome)
      else if name == "fmt" then do
        let arguments ← sort? [] rest
        arguments.file?.map .format
      else none

/-! ## Outcomes -/

def success (printed : String) : Outcome := ⟨0, printed, ""⟩

/-- A command that failed, with what it had printed by then. -/
def failure (printed : String) (error : Error) : Outcome :=
  ⟨1, printed, "error: " ++ error.message ++ "\n"⟩

def ofResult : Except Error String → Outcome
  | .ok printed => success printed
  | .error error => failure "" error

def readSource (files : FileTree) (file : String) : Except Error String :=
  match files.read? file with
  | some text => .ok text
  | none => .error (.inFile file (.unreadable (files.readFault file)))

def readProgram (files : FileTree) (file : String) : Except Error Program := do
  let text ← readSource files file
  parseText text

/-- Lists tokens up to the first one that cannot be read. -/
def listTokens (text : String) : Outcome :=
  let (found, failed, _) := (Lexer.ofString text).remaining
  let printed := String.join (found.map fun token => token.listing ++ "\n")
  match failed with
  | none => success printed
  | some error => failure printed (.lex error)

/-! ## Running programs -/

/-- The settings of a run: those of the settings file, then those of the command line. -/
def settingsOf (files : FileTree) (sourceRoot : Option String) (maxCallDepth : Option Nat)
    (config : Option String) : Except Error Settings := do
  let settings ← match config with
    | none => pure Settings.default
    | some path =>
        match files.read? path with
        | some text => Settings.parse text
        | none => .error (.unreadable (files.readFault path))
  pure { settings with
    maxCallDepth := maxCallDepth.getD settings.maxCallDepth
    sourceRoot := sourceRoot.or settings.sourceRoot }

/-- The source root of files of the main package when none is set: the directory around that of the
first file. -/
def defaultRoot (sources : List String) : Option String := do
  let first ← sources.head?
  let directory ← Path.parent? first
  Path.parent? directory

/-- Reads the files of the main package and checks all packages of the program. -/
def prepareMain (files : FileTree) (sources : List String) : Loading (List Package) := do
  Workspace.loadFiles files Session.mainPath sources
  prepare files Session.mainPath

/-- Loads the packages of a program and calls the function it starts with. -/
def runPackages (settings : Settings) (packages : List Package) : Outcome :=
  match loadPackages Session.ample settings .empty Session.mainPath packages with
  -- What the initializers printed before the failure is printed.
  | .error error session => failure session.machine.output.take.1 error
  | .ok _ session =>
      match Session.runMain session with
      | .ok _ session => success session.machine.output.take.1
      | .error error session => failure session.machine.output.take.1 error

def runProgram (files : FileTree) (sources : List String) (settings : Settings) : Outcome :=
  let workspace := Workspace.empty (settings.sourceRoot.or (defaultRoot sources))
  match prepareMain files sources workspace with
  | .error error _ => failure "" error
  | .ok packages _ => runPackages settings packages

def perform (files : FileTree) : Command → Outcome
  | .run sources sourceRoot maxCallDepth config =>
      match settingsOf files sourceRoot maxCallDepth config with
      | .error error => failure "" error
      | .ok settings => runProgram files sources settings
  | .tokens file =>
      match readSource files file with
      | .error error => failure "" error
      | .ok text => listTokens text
  | .tree file asJson =>
      ofResult <| (readProgram files file).map fun program =>
        (if asJson then program.outline.json else program.outline.listing) ++ "\n"
  | .format file => ofResult <| (readProgram files file).map Program.render

/-! ## Files of a command -/

def named : Command → List String
  | .run sources _ _ config => sources ++ config.toList
  | .tokens file | .tree file _ | .format file => [file]

/-- The directory that a command looks for imported packages in, given the files that it names. -/
def root? (files : FileTree) : Command → Option String
  | .run sources sourceRoot maxCallDepth config =>
      match settingsOf files sourceRoot maxCallDepth config with
      | .ok settings => settings.sourceRoot.or (defaultRoot sources)
      | .error _ => none
  | _ => none

def importsOf (text : String) : List String :=
  match parseText text with
  | .ok program => program.imports.map (·.path)
  | .error _ => []

/-! ## The whole command line -/

def usage : String :=
  "usage: minigo [-v] run FILE... [--src-root DIR] [--max-call-depth N] [--config FILE]\n"
    ++ "       minigo [-v] tokens FILE\n"
    ++ "       minigo [-v] ast [--json] FILE\n"
    ++ "       minigo [-v] fmt FILE\n"

def outcome (files : FileTree) (args : List String) : Outcome :=
  match parse? args with
  | some command => command.perform files
  | none => ⟨2, "", usage⟩

end Command

end MiniGo
