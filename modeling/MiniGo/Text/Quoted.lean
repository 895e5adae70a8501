import MiniGo.Text.CharClass

/-!
# Quoted texts

Three ways to write a text between double quotes: as a string literal of a source text, as it is
shown in a listing of data, and as a string of a JSON text. They differ in what they escape.
-/

namespace MiniGo.Quoted

def hexDigits (n : Nat) : List Char := Nat.toDigits 16 n

/-- A character of a string literal. Carriage returns and other controls stand for themselves. -/
def literalChar : Char → List Char
  | '"' => ['\\', '"']
  | '\\' => ['\\', '\\']
  | '\n' => ['\\', 'n']
  | '\t' => ['\\', 't']
  | c => [c]

/-- The string literal of a text, as characters. -/
def literalChars (text : List Char) : List Char :=
  '"' :: (text.flatMap literalChar ++ ['"'])

def literal (text : String) : String := String.ofList (literalChars text.toList)

/-- A character of a listing: what has no shape of its own is shown by its code point. -/
def shownChar (c : Char) : List Char :=
  if c = '"' then ['\\', '"']
  else if c = '\\' then ['\\', '\\']
  else if c = '\n' then ['\\', 'n']
  else if c = '\r' then ['\\', 'r']
  else if c = '\t' then ['\\', 't']
  else if c.toNat = 0 then ['\\', '0']
  else if CharClass.isExtender c || !CharClass.isVisible c then
    '\\' :: 'u' :: '\x7b' :: (hexDigits c.toNat ++ ['\x7d'])
  else [c]

def shown (text : String) : String :=
  String.ofList ('"' :: (text.toList.flatMap shownChar ++ ['"']))

/-- A character of a JSON string: controls are escaped, all else stands for itself. -/
def jsonChar (c : Char) : List Char :=
  if c = '"' then ['\\', '"']
  else if c = '\\' then ['\\', '\\']
  else if c = '\n' then ['\\', 'n']
  else if c = '\r' then ['\\', 'r']
  else if c = '\t' then ['\\', 't']
  else if c.toNat = 8 then ['\\', 'b']
  else if c.toNat = 12 then ['\\', 'f']
  else if c.toNat < 32 then
    let digits := hexDigits c.toNat
    '\\' :: 'u' :: (List.replicate (4 - digits.length) '0' ++ digits)
  else [c]

def json (text : String) : String :=
  String.ofList ('"' :: (text.toList.flatMap jsonChar ++ ['"']))

end MiniGo.Quoted
