import MiniGo.Error
import MiniGo.Tree

/-!
# Reading a list of tokens

A reader takes tokens from the front of a list and gives a result or a syntax error. It never takes
the end of the input, so a reader at the end stays there. Readers that call each other are bounded
by fuel; running out of it is kept apart from every syntax error.
-/

namespace MiniGo

/-- Why a reader stopped: an error in the text, or a bound on its calls. -/
inductive Stop where
  | error (error : SyntaxError)
  | exhausted

abbrev Reader := StateT (List Token) (Except Stop)

namespace Reader

def endToken : Token := ⟨.endOfInput, "", Location.nowhere⟩

def head (tokens : List Token) : Token := tokens.headD endToken

/-- The token behind the one ahead; the last token stands for those behind it. -/
def second : List Token → Token
  | _ :: token :: _ => token
  | tokens => head tokens

/-- The tokens behind the one ahead; the end of the input stays ahead. -/
def tail : List Token → List Token
  | [] => []
  | token :: tokens =>
      match token.word with
      | .endOfInput => token :: tokens
      | _ => tokens

def peek : Reader Token := fun tokens => .ok (head tokens, tokens)

def peekWord : Reader Word := fun tokens => .ok ((head tokens).word, tokens)

def peekSecond : Reader Word := fun tokens => .ok ((second tokens).word, tokens)

def advance : Reader Token := fun tokens => .ok (head tokens, tail tokens)

def fail (error : SyntaxError) : Reader α := fun _ => .error (.error error)

/-- Stops because the bound on calls is reached. -/
def exhausted : Reader α := fun _ => .error .exhausted

/-- Stops because the token ahead is not what the grammar asks for. -/
def refuse (expected : Expected) : Reader α := fun tokens =>
  .error (.error (.unexpected expected (head tokens)))

def atMark (mark : Mark) : Reader Bool := fun tokens =>
  .ok (match (head tokens).word with | .mark found => found == mark | _ => false, tokens)

def atKeyword (keyword : Keyword) : Reader Bool := fun tokens =>
  .ok (match (head tokens).word with | .keyword found => found == keyword | _ => false, tokens)

def isSemicolon (token : Token) : Bool :=
  match token.word with
  | .semicolon _ => true
  | _ => false

def atSemicolon : Reader Bool := fun tokens => .ok (isSemicolon (head tokens), tokens)

def atWrittenSemicolon : Reader Bool := fun tokens =>
  .ok (isSemicolon (head tokens) && !(head tokens).isImplicit, tokens)

def expectMark (mark : Mark) (expected : Expected) : Reader Token := do
  if ← atMark mark then advance else refuse expected

def expectKeyword (keyword : Keyword) (expected : Expected) : Reader Token := do
  if ← atKeyword keyword then advance else refuse expected

def expectSemicolon (expected : Expected) : Reader Token := do
  if ← atSemicolon then advance else refuse expected

def expectName (expected : Expected) : Reader String := do
  match ← peekWord with
  | .identifier name => do
      let _ ← advance
      pure name
  | _ => refuse expected

def skipSemicolons : Reader Unit := fun tokens => .ok ((), tokens.dropWhile isSemicolon)

/-- Ends a declaration: a semicolon, or nothing before a closing brace or the end. -/
def terminate : Reader Unit := do
  match ← peekWord with
  | .semicolon _ => do
      let _ ← advance
  | .mark .rightBrace | .endOfInput => pure ()
  | _ => refuse .terminator

/-- Ends a statement: a semicolon, or nothing before a closing brace, then all semicolons. -/
def separate : Reader Unit := do
  if ← atMark .rightBrace then skipSemicolons
  else do
    let _ ← expectSemicolon .terminator
    skipSemicolons

def nestingLimit : Nat := 1000

/-- Reads one level deeper, unless that passes the limit. -/
def nested (depth : Nat) (inner : Nat → Reader α) : Reader α := do
  if nestingLimit ≤ depth then do
    let here ← peek
    fail (.invalid (.nesting nestingLimit) here.location)
  -- The depth is a parameter of the readers and not of the tokens, so leaving a level needs no step.
  else inner (depth + 1)

/-- The result of a reader on tokens, without what it leaves. The bound on calls is never reached
with the fuel that the callers give. -/
def run (reader : Reader α) (tokens : List Token) : Except SyntaxError α :=
  match StateT.run reader tokens with
  | .ok (result, _) => .ok result
  | .error (.error error) => .error error
  -- Never met: the callers give more fuel than any chain of calls takes.
  | .error .exhausted => .error (.invalid (.nesting nestingLimit) (head tokens).location)

/-- Enough fuel for a list of tokens: no chain of more than fifteen calls takes no token. -/
def fuelFor (tokens : List Token) : Nat := 16 * (tokens.length + 1)

end Reader

end MiniGo
