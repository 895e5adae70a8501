import MiniGo.Decimal.Binary64

/-!
# The fewest digits that read back

The digits of a positive float are the fewest whose nearest float it is. For one digit, two digits
and so on, the two neighbours of the float on that decimal grid are read back; the first grid where
one of them gives the float's bits again wins, and of two the nearer one. Seventeen digits always
suffice; should no grid win, the exact expansion is taken, which is finite.

`readsBack_of_onGrid` states that a decimal found on a grid reads back.
-/

namespace MiniGo.Decimal

/-- Which of two neighbours at the same distance is taken. -/
inductive Tie where
  | up
  | even
deriving DecidableEq, Repr

/-- The number `digits · 10 ^ exponent`. -/
structure Digits where
  digits : Nat
  exponent : Int
deriving DecidableEq, Repr

/-- The decimal's nearest float has these bits. -/
def Digits.readsBack (decimal : Digits) (bits : Nat) : Bool :=
  nearestBitsOfDecimal decimal.digits decimal.exponent == bits

/-- The ratio divided by a power of ten, as a ratio of natural numbers. -/
def scaledByTen (numerator denominator : Nat) : Int → Nat × Nat
  | .ofNat exponent => (numerator, denominator * Nat.pow 10 exponent)
  | .negSucc exponent => (numerator * Nat.pow 10 (exponent + 1), denominator)

/-- The greatest exponent `e` with `10 ^ e` at most the ratio, estimated from the binary one and
corrected by comparison. -/
def decimalExponent (numerator denominator : Nat) : Int :=
  let guess := binaryExponent numerator denominator * 30103 / 100000
  let fits (exponent : Int) : Bool :=
    let (above, below) := scaledByTen numerator denominator exponent
    below ≤ above
  if fits (guess + 1) then guess + 1 else if fits guess then guess else guess - 1

/-- Of two candidates the one that reads back; of both, the high one if it is preferred. -/
def choose (preferHigh : Bool) (low high : Digits) (bits : Nat) : Option Digits :=
  match low.readsBack bits, high.readsBack bits with
  | true, true => some (if preferHigh then high else low)
  | true, false => some low
  | false, true => some high
  | false, false => none

/-- Of the two neighbours on a decimal grid, one that reads back; of both, the nearer. -/
def onGrid (tie : Tie) (bits numerator denominator : Nat) (exponent : Int) : Option Digits :=
  let (above, below) := scaledByTen numerator denominator exponent
  let whole := above / below
  let twice := 2 * (above % below)
  let preferHigh := below < twice || (twice == below && (tie == .up || whole % 2 == 1))
  -- The upper neighbour of a number on the grid is tried too; it is further away and then not
  -- preferred.
  choose preferHigh ⟨whole, exponent⟩ ⟨whole + 1, exponent⟩ bits

/-- The exact value of a finite float: a power of five in place of each halving. -/
def exact (bits : Nat) : Digits :=
  match unpack bits with
  | (mantissa, .ofNat exponent) => ⟨mantissa * Nat.pow 2 exponent, 0⟩
  | (mantissa, .negSucc exponent) => ⟨mantissa * Nat.pow 5 (exponent + 1), -(exponent + 1 : Int)⟩

/-- Drops the zeros at the end of the digits; `fuel` bounds their number. -/
def Digits.trim : Nat → Digits → Digits
  | 0, decimal => decimal
  | fuel + 1, decimal =>
      if decimal.digits ≠ 0 ∧ decimal.digits % 10 = 0 then
        Digits.trim fuel ⟨decimal.digits / 10, decimal.exponent + 1⟩
      else decimal

/-- The fewest digits that read back as the float with these bits. -/
def shortest (tie : Tie) (bits : Nat) : Digits :=
  let (numerator, denominator) := ratio bits
  let leading := decimalExponent numerator denominator
  -- Each further digit refines the grid by ten.
  let found := (List.range 17).findSome? fun count : Nat =>
    onGrid tie bits numerator denominator (leading - count)
  let decimal := found.getD (exact bits)
  -- On the first grid the upper neighbour of nine is ten, and an exact expansion may end in zeros.
  decimal.trim (digitCount decimal.digits)

theorem readsBack_of_choose {preferHigh : Bool} {low high decimal : Digits} {bits : Nat}
    (found : choose preferHigh low high bits = some decimal) : decimal.readsBack bits = true := by
  unfold choose at found
  split at found
  · split at found <;> (injection found with equal; rw [← equal]; assumption)
  · injection found with equal; rw [← equal]; assumption
  · injection found with equal; rw [← equal]; assumption
  · contradiction

theorem readsBack_of_onGrid {tie : Tie} {bits numerator denominator : Nat} {exponent : Int}
    {decimal : Digits} (found : onGrid tie bits numerator denominator exponent = some decimal) :
    decimal.readsBack bits = true :=
  readsBack_of_choose found

end MiniGo.Decimal
