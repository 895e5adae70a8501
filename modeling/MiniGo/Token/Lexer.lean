import MiniGo.Error
import MiniGo.Decimal.Binary64
import MiniGo.Text.CharClass

/-!
# Reading tokens

A lexer walks over a text and gives its tokens one at a time. Between two words it skips a gap of
blanks, line breaks and comments; when the word before the gap can end a statement, the first line
break of the gap is a token too, an implicit semicolon, and so is the end of the text.

Each part is a function on a list of characters that gives what it read and what is left:
`scanGap`, `scanString`, `scanNumber`, `scanName` and `scanFixed`. Places are moved over the text
that was read.
-/

namespace MiniGo.Lexer

/-! ## Gaps -/

/-- What the reader of a gap is inside of. -/
inductive GapMode where
  | blank
  | lineComment
  /-- A block comment, where it began and whether it has a line break so far. -/
  | blockComment (start : Location) (spansLines : Bool)
deriving DecidableEq

/-- What a gap leads to: a word, a line break that ends the statement (found at a place, with the
text behind it), the end of the text, or a comment that does not end. -/
inductive Gap where
  | word (location : Location) (rest : List Char)
  | lineBreak (found : Location) (location : Location) (rest : List Char)
  | finish (location : Location)
  | unterminated (start : Location)

/-- Skips a gap. With `pending` a line break ends the statement: outside a comment it is found at
its own place, inside a block comment at the end of the comment. -/
def scanGap (pending : Bool) : GapMode → Location → List Char → Gap
  | .blockComment start _, _, [] => .unterminated start
  -- The end of the text ends a statement as a line break does.
  | .blank, location, [] | .lineComment, location, [] =>
      if pending then .lineBreak location location [] else .finish location
  | .blank, location, '/' :: '/' :: rest =>
      scanGap pending .lineComment ((location.step '/').step '/') rest
  | .blank, location, '/' :: '*' :: rest =>
      scanGap pending (.blockComment location false) ((location.step '/').step '*') rest
  | .blockComment _ spansLines, location, '*' :: '/' :: rest =>
      let behind := (location.step '*').step '/'
      -- A comment over several lines counts as one line break, which is found behind it.
      if spansLines && pending then .lineBreak behind behind rest
      else scanGap pending .blank behind rest
  | .blockComment start spansLines, location, c :: rest =>
      scanGap pending (.blockComment start (spansLines || c == '\n')) (location.step c) rest
  | .lineComment, location, c :: rest =>
      if c = '\n' then
        if pending then .lineBreak location (location.step c) rest
        else scanGap pending .blank (location.step c) rest
      else scanGap pending .lineComment (location.step c) rest
  | .blank, location, c :: rest =>
      if c = '\n' then
        if pending then .lineBreak location (location.step c) rest
        else scanGap pending .blank (location.step c) rest
      else if c = ' ' ∨ c = '\r' ∨ c = '\t' then scanGap pending .blank (location.step c) rest
      else .word location (c :: rest)

/-! ## Words -/

/-- What an escaped character of a string literal stands for; an unknown escape stands for itself,
backslash included. -/
def unescape : Char → List Char
  | 'n' => ['\n']
  | 't' => ['\t']
  | '\\' => ['\\']
  | '"' => ['"']
  | other => ['\\', other]

/-- Reads a string literal behind its opening quote: its value and its text up to the closing
quote, and what is left. The value and the text read so far come in reverse. There is none when a
line break or the end of the text comes before the closing quote; an escaped line break does not
count. -/
def scanString (value lexeme : List Char) : List Char → Option (List Char × List Char × List Char)
  | [] => none
  | ['\\'] => none
  -- The escape comes before the test for a line break, so an escaped one stays in the string.
  | '\\' :: c :: rest =>
      scanString ((unescape c).reverse ++ value) (c :: '\\' :: lexeme) rest
  | c :: rest =>
      if c = '\n' then none
      else if c = '"' then some (value.reverse, ('"' :: lexeme).reverse, rest)
      else scanString (c :: value) (c :: lexeme) rest

def digitsValue (digits : List Char) : Nat :=
  digits.foldl (fun value digit => 10 * value + (digit.toNat - '0'.toNat)) 0

/-- The parts of a number literal: digits, digits behind a point, and an exponent with its mark and
sign. -/
structure NumberText where
  whole : List Char
  fraction? : Option (List Char)
  exponent? : Option (Char × Option Char × List Char)

/-- Reads the exponent of a number, if one with at least one digit follows. -/
def scanExponent (text : List Char) : Option (Char × Option Char × List Char) × List Char :=
  match text with
  | mark :: rest =>
      if mark = 'e' ∨ mark = 'E' then
        match rest with
        | sign :: digits =>
            if sign = '+' ∨ sign = '-' then
              let (read, left) := digits.span CharClass.isDigit
              -- Without a digit neither the mark nor its sign belongs to the number.
              if read.isEmpty then (none, text) else (some (mark, some sign, read), left)
            else
              let (read, left) := rest.span CharClass.isDigit
              if read.isEmpty then (none, text) else (some (mark, none, read), left)
        | [] => (none, text)
      else (none, text)
  | [] => (none, text)

def scanNumber (text : List Char) : NumberText × List Char :=
  let (whole, rest) := text.span CharClass.isDigit
  let (fraction?, rest) := match rest with
    | '.' :: behind =>
        let (fraction, left) := behind.span CharClass.isDigit
        -- The digits behind a point may be missing; the point belongs to the number all the same.
        (some fraction, left)
    | _ => (none, rest)
  let (exponent?, rest) := scanExponent rest
  (⟨whole, fraction?, exponent?⟩, rest)

namespace NumberText

def lexeme (number : NumberText) : List Char :=
  let fraction := match number.fraction? with
    | some digits => '.' :: digits
    | none => []
  let exponent := match number.exponent? with
    | some (mark, sign, digits) => mark :: (sign.toList ++ digits)
    | none => []
  number.whole ++ fraction ++ exponent

/-- The word of a number literal: a float if it has a point or an exponent, else an integer below
`2 ^ 64`. -/
def word? (number : NumberText) : Option Word :=
  match number.fraction?, number.exponent? with
  | none, none =>
      let magnitude := digitsValue number.whole
      if magnitude < UInt64.size then some (.integer magnitude) else none
  | fraction?, exponent? =>
      let fraction := fraction?.getD []
      let exponent : Int := match exponent? with
        | some (_, some '-', digits) => -(digitsValue digits)
        | some (_, _, digits) => digitsValue digits
        | none => 0
      some (.float (Decimal.toFloat (digitsValue (number.whole ++ fraction))
        -- The point is moved behind all digits, which the exponent makes up for.
        (exponent - fraction.length)))

end NumberText

/-- The word that a name stands for: a keyword or an identifier. -/
def nameWord (name : String) : Word :=
  match Keyword.ofSpelling? name with
  | some keyword => .keyword keyword
  | none => .identifier name

def scanFixed (text : List Char) : Option (Word × List Char × List Char) :=
  -- The longer spellings come first in the table, so the first that fits is the longest.
  Word.fixed.findSome? fun (spelling, word) =>
    let chars := spelling.toList
    if chars.isPrefixOf text then some (word, chars, text.drop chars.length) else none

/-- Reads the word that begins here: the word, its text and what is left. -/
def scanWord (location : Location) (text : List Char) :
    Except LexError (Word × List Char × List Char) :=
  match text with
  | [] => .ok (.endOfInput, [], [])
  | first :: behind =>
      if first = '"' then
        match scanString [] ['"'] behind with
        | some (value, lexeme, rest) => .ok (.string (String.ofList value), lexeme, rest)
        | none => .error (.unterminatedString location)
      else if CharClass.startsName first then
        let (name, rest) := text.span CharClass.continuesName
        .ok (nameWord (String.ofList name), name, rest)
      -- A point begins a number only in front of a digit.
      else if CharClass.isDigit first || (first == '.' && behind.head?.any CharClass.isDigit) then
        let (number, rest) := scanNumber text
        match number.word? with
        | some word => .ok (word, number.lexeme, rest)
        | none => .error (.invalidNumber (String.ofList number.lexeme) location)
      else
        match scanFixed text with
        | some found => .ok found
        | none => .error (.unexpectedCharacter first location)

end MiniGo.Lexer

namespace MiniGo

/-- A reader of tokens: the whole text, the place and the text still ahead, whether a line break
would end a statement, and whether the last token or an error was given. -/
structure Lexer where
  source : List Char
  rest : List Char
  location : Location
  pending : Bool
  finished : Bool

namespace Lexer

def ofList (source : List Char) : Lexer :=
  ⟨source, source, Location.start, false, false⟩

def ofString (source : String) : Lexer := ofList source.toList

def reset (lexer : Lexer) : Lexer := ofList lexer.source

def step (lexer : Lexer) : Except LexError (Token × Lexer) :=
  match scanGap lexer.pending .blank lexer.location lexer.rest with
  | .unterminated start => .error (.unterminatedComment start)
  | .lineBreak found location rest =>
      -- The line break is used up together with what was pending, so no second one follows.
      .ok (⟨.semicolon true, "\n", found⟩, { lexer with rest, location, pending := false })
  | .finish location =>
      .ok (⟨.endOfInput, "", location⟩, { lexer with rest := [], location, finished := true })
  | .word location text => do
      let (word, lexeme, rest) ← scanWord location text
      pure (⟨word, String.ofList lexeme, location⟩,
        { lexer with rest, location := location.after lexeme, pending := word.endsStatement })

/-- The next token or an error, and the lexer behind it; nothing follows the end of the text or an
error. -/
def next (lexer : Lexer) : Option (Except LexError Token) × Lexer :=
  if lexer.finished then (none, lexer)
  else match lexer.step with
    | .ok (token, after) => (some (.ok token), after)
    -- The lexer stays in front of the text that failed.
    | .error error => (some (.error error), { lexer with finished := true })

/-- The tokens up to the end or an error, and the lexer behind them. Every token but the last uses
up a character or the pending line break, so `fuel` is enough when it is more than twice the
characters ahead. -/
def drain : Nat → Lexer → List Token × Option LexError × Lexer
  | 0, lexer => ([], none, lexer)
  | fuel + 1, lexer =>
      match lexer.next with
      | (none, after) => ([], none, after)
      | (some (.error error), after) => ([], some error, after)
      | (some (.ok token), after) =>
          let (tokens, error?, last) := drain fuel after
          (token :: tokens, error?, last)

/-- The tokens still ahead, the error that ended them if there is one, and the lexer behind them. -/
def remaining (lexer : Lexer) : List Token × Option LexError × Lexer :=
  lexer.drain (2 * lexer.rest.length + 3)

/-- All tokens of the text or the first error, from the start wherever the lexer was. -/
def tokenize (lexer : Lexer) : Except LexError (List Token) × Lexer :=
  match lexer.reset.remaining with
  | (tokens, none, after) => (.ok tokens, after)
  | (_, some error, after) => (.error error, after)

end Lexer

/-- The tokens of a text, the end of the input last, or the first error. -/
def tokenize (source : String) : Except LexError (List Token) :=
  (Lexer.ofString source).tokenize.1

end MiniGo
