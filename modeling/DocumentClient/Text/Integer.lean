/-!
# Decimal integers

`digits` writes a natural number, and `readDigits?` reads one or more digits back.
`readInteger?` allows one sign in front, `readUnsigned?` only a plus sign. Leading zeros are
allowed, blanks are not. The readers for words of 32 and 64 bits also check the range.
-/

namespace DocumentClient.Text

/-- The digit character of a number below ten. -/
def digitChar (n : Nat) : Char :=
  Char.ofNat (48 + n)

/-- The decimal digits of a natural number, without leading zeros. -/
def digits (n : Nat) : List Char :=
  if n < 10 then [digitChar n] else digits (n / 10) ++ [digitChar (n % 10)]
termination_by n

/-- How many decimal digits a natural number has. -/
def digitCount (n : Nat) : Nat :=
  if n < 10 then 1 else digitCount (n / 10) + 1
termination_by n

/-- As many digits are written as the number has. -/
theorem length_digits (n : Nat) : (digits n).length = digitCount n := by
  fun_induction digits n with
  | case1 n h => simp [digitCount, h]
  | case2 n h ih => rw [digitCount, if_neg h, List.length_append, ih, List.length_singleton]

/-- A natural number written with at least `width` digits. -/
def paddedDigits (width n : Nat) : List Char :=
  let plain := digits n
  List.replicate (width - plain.length) '0' ++ plain

/-- The decimal form of an integer, with a minus sign if it is negative. -/
def integer : Int → List Char
  | .ofNat n => digits n
  | .negSucc n => '-' :: digits (n + 1)

/-- The value of a digit character. -/
def digitValue? (c : Char) : Option Nat :=
  if '0' ≤ c ∧ c ≤ '9' then some (c.toNat - 48) else none

/-- The value of a row of digits that follows digits worth `value`. -/
def readMoreDigits? (value : Nat) : List Char → Option Nat
  | [] => some value
  | c :: rest =>
    match digitValue? c with
    | some d => readMoreDigits? (10 * value + d) rest
    | none => none

/-- The value of a text of one or more digits. -/
def readDigits? : List Char → Option Nat
  | [] => none
  | text => readMoreDigits? 0 text

/-- The value of an optional plus sign and one or more digits. -/
def readUnsigned? : List Char → Option Nat
  | '+' :: rest => readDigits? rest
  | text => readDigits? text

/-- The value of an optional sign and one or more digits. -/
def readInteger? : List Char → Option Int
  | '+' :: rest => (readDigits? rest).map Int.ofNat
  | '-' :: rest => (readDigits? rest).map fun n => -(n : Int)
  | text => (readDigits? text).map Int.ofNat

/-- The 32-bit word with this value, if it is in range. -/
def toInt32? (n : Int) : Option Int32 :=
  if -2147483648 ≤ n ∧ n ≤ 2147483647 then some (Int32.ofInt n) else none

/-- The 64-bit word with this value, if it is in range. -/
def toInt64? (n : Int) : Option Int64 :=
  if -9223372036854775808 ≤ n ∧ n ≤ 9223372036854775807 then some (Int64.ofInt n) else none

/-- The 16-bit word with this value, if it is in range. -/
def toUInt16? (n : Nat) : Option UInt16 :=
  if n ≤ 65535 then some (UInt16.ofNat n) else none

/-- Reads a 32-bit integer. -/
def readInt32? (text : List Char) : Option Int32 :=
  (readInteger? text).bind toInt32?

/-- Reads a 64-bit integer. -/
def readInt64? (text : List Char) : Option Int64 :=
  (readInteger? text).bind toInt64?

/-- Reads an unsigned 16-bit integer. -/
def readUInt16? (text : List Char) : Option UInt16 :=
  (readUnsigned? text).bind toUInt16?

end DocumentClient.Text
