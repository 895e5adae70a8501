/-!
# Decimal numbers as binary floats

A binary float with 53 bits of precision is read off its 64 bits as `mantissa · 2 ^ exponent`, and a
positive ratio of natural numbers is rounded to the nearest such float, a tie going to the even
mantissa. All arithmetic is exact. The bits of consecutive positive floats are consecutive numbers,
so one sum places a mantissa at its exponent, carries included.
-/

namespace MiniGo.Decimal

/-- The unit of the exponent in the bits of a float; it is also the leading bit of a normal mantissa,
which the bits leave out. -/
def hiddenBit : Nat := 0x10000000000000

def signBit : Nat := 0x8000000000000000

/-- The bits of positive infinity, and the bound of the bits of finite positive floats. -/
def infinityBits : Nat := 0x7ff0000000000000

/-- The least exponent of two of a float; it is that of the subnormal floats too. -/
def leastExponent : Int := -1074

/-- The quotient rounded to the nearest natural number, a tie to the even one. -/
def roundedQuotient (numerator denominator : Nat) : Nat :=
  let quotient := numerator / denominator
  -- Half of the divisor is compared with the rest without halving, which would not be exact.
  let twice := 2 * (numerator % denominator)
  if denominator < twice || (twice == denominator && quotient % 2 == 1) then quotient + 1
  else quotient

/-- The ratio `numerator / (denominator · 2 ^ exponent)` as a ratio of natural numbers. -/
def scaledByTwo (numerator denominator : Nat) : Int → Nat × Nat
  | .ofNat exponent => (numerator, denominator * Nat.pow 2 exponent)
  | .negSucc exponent => (numerator * Nat.pow 2 (exponent + 1), denominator)

/-- The greatest exponent `e` with `2 ^ e` at most the ratio of two positive numbers. -/
def binaryExponent (numerator denominator : Nat) : Int :=
  let guess : Int := (Nat.log2 numerator : Int) - Nat.log2 denominator
  let (above, below) := scaledByTwo numerator denominator guess
  -- The difference of the logarithms is never too small, and too great by one at most.
  if below ≤ above then guess else guess - 1

/-- The bits of the float nearest to the ratio of two positive numbers. -/
def nearestBits (numerator denominator : Nat) : Nat :=
  if numerator = 0 then 0
  else
    let exponent := max leastExponent (binaryExponent numerator denominator - 52)
    let (above, below) := scaledByTwo numerator denominator exponent
    -- The hidden bit of a normal mantissa is added to the exponent field, which is one too small for
    -- it; a mantissa that was rounded up to the next power carries over the same way.
    let bits := (exponent - leastExponent).toNat * hiddenBit + roundedQuotient above below
    -- Whatever rounds beyond the greatest float is infinite.
    min bits infinityBits

/-- The number of decimal digits of a natural number; zero has one. -/
def digitCount (n : Nat) : Nat := (Nat.toDigits 10 n).length

/-- The bits of the float nearest to `mantissa · 10 ^ exponent`. Exponents that put the number
beyond every finite float, or below half of the least one, are settled without the power. -/
def nearestBitsOfDecimal (mantissa : Nat) (exponent : Int) : Nat :=
  if mantissa = 0 then 0
  else
    let leading := exponent + digitCount mantissa
    if 310 < leading then infinityBits
    else if leading < -330 then 0
    else match exponent with
      | .ofNat power => nearestBits (mantissa * Nat.pow 10 power) 1
      | .negSucc power => nearestBits mantissa (Nat.pow 10 (power + 1))

/-- The float nearest to `mantissa · 10 ^ exponent`. -/
def toFloat (mantissa : Nat) (exponent : Int) : Float :=
  Float.ofBits (UInt64.ofNat (nearestBitsOfDecimal mantissa exponent))

/-- The mantissa and the exponent of two of a finite positive float, from its bits. -/
def unpack (bits : Nat) : Nat × Int :=
  let field : Nat := bits / hiddenBit
  let fraction := bits % hiddenBit
  if field = 0 then (fraction, leastExponent)
  else (fraction + hiddenBit, leastExponent + (field : Int) - 1)

/-- A finite positive float, from its bits, as a ratio of natural numbers. -/
def ratio (bits : Nat) : Nat × Nat :=
  match unpack bits with
  | (mantissa, .ofNat exponent) => (mantissa * Nat.pow 2 exponent, 1)
  | (mantissa, .negSucc exponent) => (mantissa, Nat.pow 2 (exponent + 1))

end MiniGo.Decimal
