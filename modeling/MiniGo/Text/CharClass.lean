import MiniGo.Text.Letters
import MiniGo.Text.Capitals
import MiniGo.Text.Visibility

/-!
# Classes of characters

The classes that decide where a name begins and ends, which names leave their package, and which
characters a quoted text shows as themselves. Each is a test on ASCII together with a table of
ranges for the rest of Unicode.
-/

namespace MiniGo.CharClass

/-- The character's code point lies in one of the ranges, ends included. -/
def inRanges (c : Char) (ranges : List (Nat × Nat)) : Bool :=
  ranges.any fun range => range.1 ≤ c.toNat && c.toNat ≤ range.2

def isDigit (c : Char) : Bool :=
  '0' ≤ c && c ≤ '9'

def isLetter (c : Char) : Bool :=
  if c.toNat < 128 then c.isAlpha else inRanges c alphabeticRanges

def isLetterOrNumeral (c : Char) : Bool :=
  if c.toNat < 128 then c.isAlphanum else inRanges c alphabeticRanges || inRanges c numericRanges

def isCapital (c : Char) : Bool :=
  if c.toNat < 128 then c.isUpper else inRanges c uppercaseRanges

def isExtender (c : Char) : Bool :=
  128 ≤ c.toNat && inRanges c graphemeExtendRanges

def isVisible (c : Char) : Bool :=
  if c.toNat < 128 then ' ' ≤ c && c ≤ '~' else !inRanges c unprintableRanges

/-- A name begins with a letter or an underscore. -/
def startsName (c : Char) : Bool :=
  isLetter c || c == '_'

/-- A name goes on with letters, numerals and underscores. -/
def continuesName (c : Char) : Bool :=
  isLetterOrNumeral c || c == '_'

theorem continuesName_of_startsName (c : Char) (starts : startsName c = true) :
    continuesName c = true := by
  by_cases ascii : c.toNat < 128 <;>
    simp [startsName, continuesName, isLetter, isLetterOrNumeral, ascii, Char.isAlphanum]
      at starts ⊢ <;>
    rcases starts with letter | underscore <;> simp [*]

end MiniGo.CharClass

namespace MiniGo

/-- A name is seen outside its package when it begins with a capital letter. -/
def isExported (name : String) : Bool :=
  match name.toList with
  | [] => false
  | c :: _ => CharClass.isCapital c

end MiniGo
