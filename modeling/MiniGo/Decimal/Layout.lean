import MiniGo.Decimal.Shortest

/-!
# Written forms of floats

A written form is a handful of choices about the shortest digits: between which powers of ten the
number stands without an exponent, whether a whole number keeps `.0`, how an exponent is marked and
padded, and what stands for values that are no number. Three forms are in use: that of a printed
value, that of a literal in a source text, and that of a number in a JSON text.
-/

namespace MiniGo.Decimal

/-- The choices of a written form. -/
structure Layout where
  /-- Exponents of the leading digit from the first to the second bound, both included, are written
  without an exponent. -/
  least : Int
  greatest : Int
  /-- A whole number written without an exponent ends in `.0`. -/
  keepPoint : Bool
  /-- A positive exponent carries a plus sign. -/
  plusSign : Bool
  /-- The least number of digits of an exponent. -/
  exponentWidth : Nat
  /-- Which of two equally near candidates is taken. -/
  tie : Tie
  notANumber : String
  infinity : String
  negativeInfinity : String
deriving Repr

/-- The form of a printed value: an exponent of two digits at least, below `1e-04` and from `1e+06`. -/
def Layout.printed : Layout where
  least := -4
  greatest := 5
  keepPoint := false
  plusSign := true
  exponentWidth := 2
  tie := .up
  notANumber := "NaN"
  infinity := "+Inf"
  negativeInfinity := "-Inf"

/-- The form of a literal in a source text: always with a point or an exponent. -/
def Layout.literal : Layout where
  least := -4
  greatest := 15
  keepPoint := true
  plusSign := false
  exponentWidth := 1
  tie := .up
  notANumber := "NaN"
  infinity := "inf"
  negativeInfinity := "-inf"

/-- The form of a number in a JSON text, which has no word for values that are no number. -/
def Layout.json : Layout where
  least := -5
  greatest := 15
  keepPoint := true
  plusSign := true
  exponentWidth := 1
  tie := .even
  notANumber := "null"
  infinity := "null"
  negativeInfinity := "null"

def decimalText (n : Nat) : List Char := Nat.toDigits 10 n

def padded (width : Nat) (text : List Char) : List Char :=
  List.replicate (width - text.length) '0' ++ text

/-- A number without an exponent: its digits with the point `leading + 1` places in. -/
def positional (keepPoint : Bool) (digits : List Char) (leading : Int) : List Char :=
  match leading with
  | .negSucc below => '0' :: '.' :: List.replicate below '0' ++ digits
  | .ofNat places =>
      let whole := digits.take (places + 1)
      let fraction := digits.drop (places + 1)
      let padding := List.replicate (places + 1 - whole.length) '0'
      let tail := if fraction.isEmpty then (if keepPoint then ['.', '0'] else []) else '.' :: fraction
      whole ++ padding ++ tail

/-- A number with an exponent: one digit, a point before the others, the exponent. -/
def scientific (layout : Layout) (digits : List Char) (leading : Int) : List Char :=
  let mantissa := match digits with
    | first :: second :: rest => first :: '.' :: second :: rest
    | short => short
  let sign := if leading < 0 then ['-'] else if layout.plusSign then ['+'] else []
  mantissa ++ 'e' :: sign ++ padded layout.exponentWidth (decimalText leading.natAbs)

/-- The written form of the positive finite float with these bits. -/
def Layout.positive (layout : Layout) (bits : Nat) : List Char :=
  if bits = 0 then (if layout.keepPoint then ['0', '.', '0'] else ['0'])
  else
    let decimal := shortest layout.tie bits
    let digits := decimalText decimal.digits
    let leading := decimal.exponent + digits.length - 1
    if layout.least ≤ leading ∧ leading ≤ layout.greatest then
      positional layout.keepPoint digits leading
    else scientific layout digits leading

def Layout.render (layout : Layout) (x : Float) : String :=
  let bits := x.toBits.toNat
  let magnitude := bits % signBit
  let negative := signBit ≤ bits
  if infinityBits < magnitude then layout.notANumber
  else if magnitude = infinityBits then
    if negative then layout.negativeInfinity else layout.infinity
  else String.ofList ((if negative then ['-'] else []) ++ layout.positive magnitude)

end MiniGo.Decimal
