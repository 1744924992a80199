import DocumentClient.Number.Double
import DocumentClient.Text.Casing
import DocumentClient.Text.Integer
/-!
# Reading doubles

`readDouble?` reads a decimal as a person may write it: an optional sign, digits with an
optional point before, among or after them, an optional exponent; or a word for infinity or
NaN. The result is the nearest double.
-/

namespace DocumentClient

/-- The digits at the start of a text and what follows them. -/
def Text.spanDigits (text : List Char) : List Char × List Char :=
  (text.takeWhile Char.isDigit, text.dropWhile Char.isDigit)

/-- The value of a row of digits, zero for the empty row. -/
def Text.digitsValue (text : List Char) : Nat :=
  text.foldl (fun value c => 10 * value + (c.toNat - 48)) 0

/-- Reads the exponent of a decimal: nothing, or the letter `e` and an integer. -/
def Double.readExponent? : List Char → Option Int
  | [] => some 0
  | c :: rest => if c = 'e' ∨ c = 'E' then Text.readInteger? rest else none

/-- Reads a decimal without a sign. -/
def Double.readMagnitude? (negative : Bool) (text : List Char) : Option Double :=
  let word := text.map Text.lowerAscii
  if word = "inf".toList ∨ word = "infinity".toList then some (.infinity negative)
  else if word = "nan".toList then some .nan
  else
    let (whole, rest) := Text.spanDigits text
    let (fraction, rest) := match rest with
      | '.' :: rest => Text.spanDigits rest
      | rest => ([], rest)
    if whole.isEmpty && fraction.isEmpty then none
    else (Double.readExponent? rest).map fun exponent =>
      .ofDecimal negative (Text.digitsValue (whole ++ fraction)) (exponent - fraction.length)

/-- Reads a double. -/
def readDouble? : List Char → Option Double
  | '+' :: rest => Double.readMagnitude? false rest
  | '-' :: rest => Double.readMagnitude? true rest
  | text => Double.readMagnitude? false text

end DocumentClient
