/-!
# Double-precision numbers

A `Double` is the 64 bits of an IEEE 754 binary64 number. A finite one has the magnitude
`significand * 2 ^ unit / 2 ^ 1074`, and all arithmetic here is exact on natural numbers with
one rounding at the end: `ofRatio` gives the double nearest to a fraction, a tie going to the
even significand, and everything else is stated through it.
-/

namespace DocumentClient

/-- A double-precision number, by its bits. -/
structure Double where
  bits : UInt64
deriving DecidableEq, Inhabited

namespace Double

/-- Whether the sign bit is set. -/
def isNegative (x : Double) : Bool :=
  Nat.pow 2 63 ≤ x.bits.toNat

/-- The eleven exponent bits. -/
def exponentBits (x : Double) : Nat :=
  x.bits.toNat / Nat.pow 2 52 % 2048

/-- The 52 fraction bits. -/
def fractionBits (x : Double) : Nat :=
  x.bits.toNat % Nat.pow 2 52

def isNaN (x : Double) : Bool :=
  x.exponentBits == 2047 && x.fractionBits != 0

def isInfinite (x : Double) : Bool :=
  x.exponentBits == 2047 && x.fractionBits == 0

def isFinite (x : Double) : Bool :=
  x.exponentBits != 2047

/-- Whether the number is a zero of either sign. -/
def isZero (x : Double) : Bool :=
  x.bits.toNat % Nat.pow 2 63 == 0

/-- Equality of numbers: no NaN equals anything, and the two zeros are equal. -/
def equals (x y : Double) : Bool :=
  !x.isNaN && !y.isNaN && (x.bits == y.bits || (x.isZero && y.isZero))

/-- The significand, with the hidden bit of a normal number. -/
def significand (x : Double) : Nat :=
  if x.exponentBits = 0 then x.fractionBits else x.fractionBits + Nat.pow 2 52

/-- The power of two that one unit of the significand stands for, counted from `2 ^ -1074`. -/
def unit (x : Double) : Nat :=
  x.exponentBits - 1

/-- The magnitude of a finite number in units of `2 ^ -1074`. -/
def scaled (x : Double) : Nat :=
  x.significand * Nat.pow 2 x.unit

/-- The number with this sign and these other 63 bits. -/
def ofMagnitudeBits (negative : Bool) (magnitude : Nat) : Double :=
  ⟨UInt64.ofNat ((if negative then Nat.pow 2 63 else 0) + magnitude)⟩

/-- A number that is not a number. -/
def nan : Double :=
  ofMagnitudeBits false 0x7FF8000000000000

def infinity (negative : Bool) : Double :=
  ofMagnitudeBits negative 0x7FF0000000000000

def zero (negative : Bool) : Double :=
  ofMagnitudeBits negative 0

/-- The integer nearest to a fraction, a tie going to the even one. -/
def roundHalfEven (numerator denominator : Nat) : Nat :=
  let whole := numerator / denominator
  let twice := 2 * (numerator % denominator)
  if twice < denominator then whole
  else if denominator < twice then whole + 1
  else whole + whole % 2

/-- The double nearest to a fraction, a tie going to the even significand; infinity from half a
unit above the largest finite number on. -/
def ofRatio (negative : Bool) (numerator denominator : Nat) : Double :=
  let numerator := numerator * Nat.pow 2 1074
  let unit := (numerator / denominator).log2 - 52
  let magnitude := unit * Nat.pow 2 52 + roundHalfEven numerator (denominator * Nat.pow 2 unit)
  if magnitude < 0x7FF0000000000000 then ofMagnitudeBits negative magnitude
  else infinity negative

/-- The double nearest to an integer. -/
def ofInt (n : Int) : Double :=
  ofRatio (n < 0) n.natAbs 1

/-- The double nearest to `coefficient * 10 ^ exponent`. A decimal of more than 310 places
before the point is infinite, and one that starts 330 places after it is zero, whatever its
digits are. -/
def ofDecimal (negative : Bool) (coefficient : Nat) (exponent : Int) : Double :=
  let places := (coefficient.log2 : Int) * 30103 / 100000 + exponent
  if coefficient = 0 then zero negative
  else if 310 < places then infinity negative
  else if places < -330 then zero negative
  else if 0 ≤ exponent then ofRatio negative (coefficient * Nat.pow 10 exponent.toNat) 1
  else ofRatio negative coefficient (Nat.pow 10 (-exponent).toNat)

/-- The rounded product of two finite numbers. -/
def mul (x y : Double) : Double :=
  ofRatio (x.isNegative != y.isNegative) (x.scaled * y.scaled) (Nat.pow 2 2148)

/-- The rounded quotient of two finite numbers, the second not zero. -/
def div (x y : Double) : Double :=
  ofRatio (x.isNegative != y.isNegative) x.scaled y.scaled

/-- The number with the other sign. -/
def neg (x : Double) : Double :=
  ofMagnitudeBits (!x.isNegative) (x.bits.toNat % Nat.pow 2 63)

end Double

end DocumentClient
