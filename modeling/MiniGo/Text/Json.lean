/-!
# Reading JSON

A reader of JSON texts that keeps what settings are made of: of numbers it keeps those that are
written as natural numbers. A text holds one value and blanks around it. Strings hold no raw control
characters, and every escaped half of a character outside the basic plane stands beside its other
half.
-/

namespace MiniGo

inductive Json where
  | null
  | bool (value : Bool)
  | natural (value : Nat)
  /-- A number with a sign, a fraction or an exponent. -/
  | number
  | string (value : String)
  | array (items : List Json)
  | object (members : List (String × Json))

namespace Json

def isBlank (c : Char) : Bool := c == ' ' || c == '\n' || c == '\t' || c == '\r'

def skip (text : List Char) : List Char := text.dropWhile isBlank

/-- A text without a word at its start. -/
def word? : List Char → List Char → Option (List Char)
  | [], text => some text
  | _ :: _, [] => none
  | c :: word, d :: text => if c = d then word? word text else none

/-! ## Numbers -/

/-- The digits at the start of a text, of which there has to be one, and the rest. -/
def digits? (text : List Char) : Option (List Char × List Char) :=
  match text.takeWhile Char.isDigit with
  | [] => none
  | digits => some (digits, text.dropWhile Char.isDigit)

/-- The digits of an integer and the rest; a zero at the start stands alone. -/
def integer? : List Char → Option (List Char × List Char)
  | '0' :: text => some (['0'], text)
  | text => digits? text

/-- The rest behind a fraction, and whether there is one. -/
def fraction? : List Char → Option (Bool × List Char)
  | '.' :: text => (digits? text).map fun (_, rest) => (true, rest)
  | text => some (false, text)

/-- The rest behind an exponent, and whether there is one. -/
def exponent? : List Char → Option (Bool × List Char)
  | c :: text =>
      if c = 'e' || c = 'E' then
        let unsigned := match text with
          | '+' :: rest | '-' :: rest => rest
          | rest => rest
        (digits? unsigned).map fun (_, rest) => (true, rest)
      else some (false, c :: text)
  | [] => some (false, [])

def valueOfDigits (digits : List Char) : Nat :=
  digits.foldl (fun value c => 10 * value + (c.toNat - '0'.toNat)) 0

/-- A number at the start of a text, and the rest. -/
def number? (isNegative : Bool) (text : List Char) : Option (Json × List Char) := do
  let (digits, rest) ← integer? text
  let (hasFraction, rest) ← fraction? rest
  let (hasExponent, rest) ← exponent? rest
  let isNatural := !isNegative && !hasFraction && !hasExponent
  pure (if isNatural then .natural (valueOfDigits digits) else .number, rest)

/-! ## Strings -/

def hexDigit? (c : Char) : Option Nat :=
  if c.isDigit then some (c.toNat - '0'.toNat)
  else if 'a' ≤ c && c ≤ 'f' then some (c.toNat - 'a'.toNat + 10)
  else if 'A' ≤ c && c ≤ 'F' then some (c.toNat - 'A'.toNat + 10)
  else none

def unit? (a b c d : Char) : Option Nat := do
  let a ← hexDigit? a
  let b ← hexDigit? b
  let c ← hexDigit? c
  let d ← hexDigit? d
  pure (4096 * a + 256 * b + 16 * c + d)

/-- The character that two escaped halves write. -/
def pair? (high low : Nat) : Option Char :=
  if 0xDC00 ≤ low && low ≤ 0xDFFF then
    some (Char.ofNat (0x10000 + 1024 * (high - 0xD800) + (low - 0xDC00)))
  else none

/-- The character behind a backslash that is no hexadecimal escape. -/
def escaped? : Char → Option Char
  | '"' => some '"'
  | '\\' => some '\\'
  | '/' => some '/'
  | 'b' => some '\x08'
  | 'f' => some '\x0c'
  | 'n' => some '\n'
  | 'r' => some '\r'
  | 't' => some '\t'
  | _ => none

/-- The characters of a string behind its opening quote, and the rest behind its closing one. -/
def characters? : List Char → Option (List Char × List Char)
  | [] => none
  | '"' :: rest => some ([], rest)
  -- Two halves make one character, so a half is read only together with the other.
  | '\\' :: 'u' :: a :: b :: c :: d :: rest => do
      let high ← unit? a b c d
      if 0xD800 ≤ high && high ≤ 0xDBFF then
        match rest with
        | '\\' :: 'u' :: e :: f :: g :: h :: rest => do
            let low ← unit? e f g h
            let character ← pair? high low
            let (others, rest) ← characters? rest
            pure (character :: others, rest)
        | _ => none
      else if 0xDC00 ≤ high && high ≤ 0xDFFF then none
      else do
        let (others, rest) ← characters? rest
        pure (Char.ofNat high :: others, rest)
  | '\\' :: c :: rest => do
      let character ← escaped? c
      let (others, rest) ← characters? rest
      pure (character :: others, rest)
  | c :: rest =>
      if c.toNat < 0x20 || c = '\\' then none
      else do
        let (others, rest) ← characters? rest
        pure (c :: others, rest)

/-- A string behind its opening quote, and the rest. -/
def string? (text : List Char) : Option (String × List Char) := do
  let (characters, rest) ← characters? text
  pure (String.ofList characters, rest)

/-! ## Values -/

mutual

/-- A value at the start of a text, and the rest. -/
def value? : Nat → List Char → Option (Json × List Char)
  | 0, _ => none
  | fuel + 1, text =>
      match skip text with
      | [] => none
      | '"' :: rest => do
          let (content, rest) ← string? rest
          pure (.string content, rest)
      | '[' :: rest =>
          match skip rest with
          | ']' :: rest => some (.array [], rest)
          | rest => do
              let (items, rest) ← items? fuel rest
              pure (.array items, rest)
      | '\x7b' :: rest =>
          match skip rest with
          | '\x7d' :: rest => some (.object [], rest)
          | rest => do
              let (members, rest) ← members? fuel rest
              pure (.object members, rest)
      | '-' :: rest => number? true rest
      | 'n' :: rest => (word? ['u', 'l', 'l'] rest).map fun rest => (.null, rest)
      | 't' :: rest => (word? ['r', 'u', 'e'] rest).map fun rest => (.bool true, rest)
      | 'f' :: rest => (word? ['a', 'l', 's', 'e'] rest).map fun rest => (.bool false, rest)
      | text => number? false text
termination_by structural fuel => fuel

/-- The items of an array up to its closing bracket, and the rest. -/
def items? : Nat → List Char → Option (List Json × List Char)
  | 0, _ => none
  | fuel + 1, text => do
      let (first, rest) ← value? fuel text
      match skip rest with
      | ']' :: rest => pure ([first], rest)
      | ',' :: rest => do
          let (others, rest) ← items? fuel rest
          pure (first :: others, rest)
      | _ => none
termination_by structural fuel => fuel

/-- The members of an object up to its closing brace, and the rest. -/
def members? : Nat → List Char → Option (List (String × Json) × List Char)
  | 0, _ => none
  | fuel + 1, text =>
      match skip text with
      | '"' :: rest => do
          let (name, rest) ← string? rest
          match skip rest with
          | ':' :: rest => do
              let (value, rest) ← value? fuel rest
              match skip rest with
              | '\x7d' :: rest => pure ([(name, value)], rest)
              | ',' :: rest => do
                  let (others, rest) ← members? fuel rest
                  pure ((name, value) :: others, rest)
              | _ => none
          | _ => none
      | _ => none
termination_by structural fuel => fuel

end

def parse? (text : String) : Option Json :=
  let characters := text.toList
  match value? (characters.length + 1) characters with
  | some (value, rest) => if (skip rest).isEmpty then some value else none
  | none => none

end Json

end MiniGo
