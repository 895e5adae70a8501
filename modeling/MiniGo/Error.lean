import MiniGo.Files.Fault
import MiniGo.Token
import MiniGo.Ty

/-!
# What can go wrong

Every failure is a cause with the data that it depends on: one type for each stage from reading
characters to running code, and `Error` for all of them together with the file they came from. The
wording of all messages is in the `message` functions of this module.
-/

namespace MiniGo

inductive LexError where
  | unexpectedCharacter (character : Char) (location : Location)
  | unterminatedString (location : Location)
  | unterminatedComment (location : Location)
  | invalidNumber (text : String) (location : Location)
deriving DecidableEq, Repr

def LexError.message : LexError → String
  | .unexpectedCharacter character location =>
      location.render ++ ": unexpected character '" ++ character.toString ++ "'"
  | .unterminatedString location => location.render ++ ": unterminated string literal"
  | .unterminatedComment location => location.render ++ ": unterminated comment"
  | .invalidNumber text location => location.render ++ ": invalid number '" ++ text ++ "'"

/-! ## Syntax -/

/-- What the grammar asks for where a token does not fit. -/
inductive Expected where
  | packageClause
  | packageName
  | declaration
  | terminator
  | importPath
  | functionName
  | parameterName
  | type
  | openParen
  | closeParen
  | closeArguments
  | closeExpression
  | openBrace
  | closeBrace
  | colon
  | semicolon
  | assignment
  | typeOrInitializer
  | nameAfter (what : String)
  | name
  | elseBody
  | caseOrDefault
  | expression
deriving DecidableEq, Repr

def Expected.text : Expected → String
  | .packageClause => "package clause"
  | .packageName => "package name"
  | .declaration => "declaration"
  | .terminator => "';' or newline"
  | .importPath => "import path"
  | .functionName => "function name"
  | .parameterName => "parameter name"
  | .type => "type"
  | .openParen => "'('"
  | .closeParen => "')'"
  | .closeArguments => "')' after arguments"
  | .closeExpression => "')' after expression"
  | .openBrace => "'\x7b'"
  | .closeBrace => "'\x7d'"
  | .colon => "':'"
  | .semicolon => "';'"
  | .assignment => "':=' or '=' or ','"
  | .typeOrInitializer => "type or '='"
  | .nameAfter what => "name after '" ++ what ++ "'"
  | .name => "name"
  | .elseBody => "if statement or block"
  | .caseOrDefault => "case or default or '\x7d'"
  | .expression => "expression"

/-- What is wrong with a stretch of tokens whose single tokens fit. -/
inductive Flaw where
  | lateImport
  | missingParameterName
  | mixedParameters
  | unusedExpression
  | nonName (mark : String)
  | severalTargets (mark : String)
  | missingInitializer
  | declarationAfterLoop
  | secondDefault
  | statementAsValue
  | overflow (magnitude : Nat)
  | nesting (limit : Nat)
deriving DecidableEq, Repr

def Flaw.text : Flaw → String
  | .lateImport => "imports must appear before other declarations"
  | .missingParameterName => "missing parameter name"
  | .mixedParameters => "mixed named and unnamed parameters"
  | .unusedExpression => "expression evaluated but not used"
  | .nonName mark => "non-name on left side of " ++ mark
  | .severalTargets mark => "unexpected " ++ mark ++ ", expected := or = or comma"
  | .missingInitializer => "missing init expr for const declaration"
  | .declarationAfterLoop => "cannot declare in post statement of for loop"
  | .secondDefault => "multiple defaults in switch"
  | .statementAsValue => "cannot use statement as value"
  | .overflow magnitude => "constant " ++ toString magnitude ++ " overflows int"
  | .nesting limit => "nesting exceeds " ++ toString limit ++ " levels"

/-- Why tokens are no program. -/
inductive SyntaxError where
  | unexpected (expected : Expected) (found : Token)
  | invalid (flaw : Flaw) (location : Location)

namespace SyntaxError

def location : SyntaxError → Location
  | unexpected _ found => found.location
  | invalid _ location => location

def message : SyntaxError → String
  | unexpected expected found =>
      match found.word with
      | .endOfInput =>
          found.location.render ++ ": unexpected end of file, expected " ++ expected.text
      | _ => found.location.render ++ ": expected " ++ expected.text ++ ", found " ++ found.describe
  | invalid flaw location => location.render ++ ": " ++ flaw.text

end SyntaxError

/-! ## Names and types -/

def assignmentCountText (targets values : Nat) : String :=
  "assignment mismatch: " ++ toString targets ++ " variable(s) but " ++ toString values ++ " value(s)"

def multiValueText (count : Nat) : String :=
  "multiple-value (" ++ toString count ++ " values) in single-value context"

/-- The message about a call without a value where one is wanted. -/
def noValueText : String := "function call (no value) used as value"

/-- Statements that leave a loop body early. -/
inductive Jump where
  | break
  | continue
deriving DecidableEq, Repr

def Jump.text : Jump → String
  | .break => "break is not in a loop or switch"
  | .continue => "continue is not in a loop"

/-- Why a program is refused before any of it runs. -/
inductive ResolutionError where
  | undefined (name : String) (location : Location)
  | noNewVariables (location : Location)
  | redeclared (name : String) (location : Location)
  | returnCount (function : String) (expected found : Nat) (location : Location)
  | multiValue (count : Nat) (location : Location)
  | noValue (location : Location)
  | initializationCycle (names : List String) (location : Location)
  | missingReturn (function : String) (location : Location)
  | assignmentCount (targets values : Nat) (location : Location)
  | unknownPackage (name : String) (location : Location)
  | packageAsValue (name : String) (location : Location)
  | unexported (package name : String) (location : Location)
  | undefinedInPackage (package name : String) (location : Location)
  | notAssignable (name : String) (location : Location)
  | unknownType (name : String) (location : Location)
  | misplaced (jump : Jump) (location : Location)
  | importCycle (paths : List String)
  | packageNotFound (path searched : String)
  | packageMismatch (expected found directory : String)
  | missingEntry (package function : String)
deriving DecidableEq, Repr

def ResolutionError.message : ResolutionError → String
  | .undefined name location => location.render ++ ": undefined: " ++ name
  | .noNewVariables location => location.render ++ ": no new variables on left side of :="
  | .redeclared name location => location.render ++ ": " ++ name ++ " redeclared in this block"
  | .returnCount function expected found location =>
      location.render ++ ": " ++ function ++ " returns " ++ toString expected
        ++ " value(s), return statement has " ++ toString found
  | .multiValue count location => location.render ++ ": " ++ multiValueText count
  | .noValue location => location.render ++ ": " ++ noValueText
  | .initializationCycle names location =>
      location.render ++ ": initialization cycle: " ++ " refers to ".intercalate names
  | .missingReturn function location =>
      location.render ++ ": missing return at end of " ++ function
  | .assignmentCount targets values location =>
      location.render ++ ": " ++ assignmentCountText targets values
  | .unknownPackage name location => location.render ++ ": undefined package: " ++ name
  | .packageAsValue name location =>
      location.render ++ ": use of package " ++ name ++ " without selector"
  | .unexported package name location =>
      location.render ++ ": name " ++ name ++ " not exported by package " ++ package
  | .undefinedInPackage package name location =>
      location.render ++ ": undefined: " ++ package ++ "." ++ name
  | .notAssignable name location => location.render ++ ": cannot assign to " ++ name
  | .unknownType name location => location.render ++ ": undefined type: " ++ name
  | .misplaced jump location => location.render ++ ": " ++ jump.text
  | .importCycle paths => "import cycle not allowed: " ++ " -> ".intercalate paths
  | .packageNotFound path searched => "cannot find package \"" ++ path ++ "\" in " ++ searched
  | .packageMismatch expected found directory =>
      "found packages " ++ expected ++ " and " ++ found ++ " in " ++ directory
  | .missingEntry package function =>
      "function " ++ function ++ " is undeclared in package " ++ package

/-! ## Running code -/

/-- What a value was to be used for when its kind did not fit. -/
inductive Purpose where
  | argument (function : String)
  | returned
  | declared
deriving DecidableEq, Repr

def Purpose.text : Purpose → String
  | .argument function => "argument to " ++ function
  | .returned => "return statement"
  | .declared => "variable declaration"

/-- Which rule about kinds a value broke. -/
inductive Mismatch where
  | condition (found : Kind)
  | comparison (kind : Kind)
  | operands (left right : Kind)
  | binaryOperator (op : BinaryOp) (kind : Kind)
  | unaryOperator (op : UnaryOp) (kind : Kind)
  | slot (found : Kind) (expected : Ty) (purpose : Purpose)
  | stored (found current : Kind)
  | untyped
  | notNumeric (name : String) (up : Bool) (kind : Kind)
  | bareImport (name : String)
  | notImport (name selected : String) (kind : Kind)
  | immutable (name : String)
  | length (kind : Kind)

def Mismatch.text : Mismatch → String
  | .condition found => "non-boolean condition (type " ++ found.name ++ ")"
  | .comparison kind => "invalid operation: " ++ kind.name ++ " values cannot be compared"
  | .operands left right =>
      "invalid operation: mismatched types " ++ left.name ++ " and " ++ right.name
  | .binaryOperator op kind =>
      "invalid operation: operator " ++ op.symbol ++ " not defined on " ++ kind.name
  | .unaryOperator op kind =>
      "invalid operation: operator " ++ op.symbol ++ " not defined on " ++ kind.name
  | .slot found expected purpose =>
      "cannot use " ++ found.name ++ " value as " ++ expected.render ++ " in " ++ purpose.text
  | .stored found current =>
      "cannot use " ++ found.name ++ " value as " ++ current.name ++ " value in assignment"
  | .untyped => "missing type or initializer"
  | .notNumeric name up kind =>
      "invalid operation: " ++ name ++ (if up then "++" else "--") ++ " (non-numeric type "
        ++ kind.name ++ ")"
  | .bareImport name => "use of package " ++ name ++ " without selector"
  | .notImport name selected kind =>
      name ++ "." ++ selected ++ " undefined (type " ++ kind.name ++ " has no field or method "
        ++ selected ++ ")"
  | .immutable name => "cannot assign to " ++ name
  | .length kind => "invalid argument: type " ++ kind.name ++ " for len"

inductive RuntimeError where
  | mismatch (cause : Mismatch) (location : Location)
  | divisionByZero (location : Location)
  | stackOverflow (limit : Nat) (location : Location)
  | notCallable (found : Kind) (location : Location)
  | nilFunction (location : Location)
  | argumentCount (function : String) (expected found : Nat) (location : Location)
  | multiValue (count : Nat) (location : Location)
  | noValue (location : Location)
  | returnCount (function : String) (expected found : Nat) (location : Location)
  | assignmentCount (targets values : Nat) (location : Location)
  | negativeShift (location : Location)
  | undefined (name : String) (location : Location)

def RuntimeError.message : RuntimeError → String
  | .mismatch cause location => location.render ++ ": " ++ cause.text
  | .divisionByZero location => location.render ++ ": division by zero"
  | .stackOverflow limit location =>
      location.render ++ ": stack overflow: call depth exceeded " ++ toString limit
  | .notCallable found location =>
      location.render ++ ": cannot call non-function value of type " ++ found.name
  | .nilFunction location => location.render ++ ": call of nil function"
  | .argumentCount function expected found location =>
      location.render ++ ": " ++ function ++ " expects " ++ toString expected
        ++ " argument(s), got " ++ toString found
  | .multiValue count location => location.render ++ ": " ++ multiValueText count
  | .noValue location => location.render ++ ": " ++ noValueText
  | .returnCount function expected found location =>
      location.render ++ ": " ++ function ++ " must return " ++ toString expected
        ++ " value(s), got " ++ toString found
  | .assignmentCount targets values location =>
      location.render ++ ": " ++ assignmentCountText targets values
  | .negativeShift location => location.render ++ ": negative shift amount"
  | .undefined name location => location.render ++ ": undefined: " ++ name

/-! ## All stages -/

inductive Error where
  | lex (error : LexError)
  | parse (error : SyntaxError)
  | resolution (error : ResolutionError)
  | runtime (error : RuntimeError)
  /-- A file or a directory could not be read. -/
  | unreadable (fault : FileFault)
  /-- A settings text is no valid settings. -/
  | settings
  /-- A computation did not end within its bound. -/
  | exhausted
  | inFile (path : String) (error : Error)

namespace Error

/-- The message of a failure, behind the stage it belongs to and the files it came from. -/
def message : Error → String
  | lex error => "lexical error: " ++ error.message
  | parse error => "syntax error: " ++ error.message
  | resolution error => "resolution error: " ++ error.message
  | runtime error => "runtime error: " ++ error.message
  | unreadable fault => "I/O error: " ++ fault.message
  | settings => "JSON error: no valid settings"
  | exhausted => "bound on the length of a computation reached"
  | inFile path error => path ++ ": " ++ error.message

def cause : Error → Error
  | inFile _ error => error.cause
  | error => error

end Error

instance : Coe LexError Error := ⟨Error.lex⟩

instance : Coe SyntaxError Error := ⟨Error.parse⟩

instance : Coe ResolutionError Error := ⟨Error.resolution⟩

instance : Coe RuntimeError Error := ⟨Error.runtime⟩

def inFile (path : String) (result : Except Error α) : Except Error α :=
  match result with
  | .ok value => .ok value
  | .error error => .error (.inFile path error)

end MiniGo
