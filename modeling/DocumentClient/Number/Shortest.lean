import DocumentClient.Number.Double
import DocumentClient.Text.Integer
/-!
# Shortest decimals

`shortest` finds the decimal with the fewest digits that rounds to a given finite double, and
among those the nearest to it. For one, two, ... digits it looks at the two neighbours of the
number on that decimal grid; the first grid with a neighbour inside the rounding interval wins.

All lengths are multiplied by `10 ^ 350`, so that every grid in question consists of integers.
-/

namespace DocumentClient

/-- The decimal `0.d₁d₂d₃… * 10 ^ point`. -/
structure Decimal where
  digits : List Char
  point : Int

namespace Decimal

/-- Which of two equally near decimals of the same length is taken. -/
inductive Tie where
  | up
  | even

/-- A double and its rounding interval, all as multiples of `1 / (2 ^ 1076 * 10 ^ 350)`. -/
structure Interval where
  low : Nat
  value : Nat
  high : Nat
  includesEnds : Bool

/-- The reals that round to a finite double. Below a power of two the neighbour is nearer. -/
def Interval.ofDouble (x : Double) : Interval :=
  let m := x.significand
  let unit := Nat.pow 2 x.unit * Nat.pow 10 350
  let below := if m = Nat.pow 2 52 ∧ 1 ≤ x.unit then 1 else 2
  { low := (4 * m - below) * unit
    value := 4 * m * unit
    high := (4 * m + 2) * unit
    includesEnds := m % 2 == 0 }

/-- Whether a multiple of `1 / 10 ^ 350` lies in the interval. -/
def Interval.contains (i : Interval) (n : Nat) : Bool :=
  let point := n * Nat.pow 2 1076
  if i.includesEnds then i.low ≤ point && point ≤ i.high else i.low < point && point < i.high

/-- The grid point to take of the two around the number, `lower * grid` and the next one. -/
def Interval.pick? (i : Interval) (tie : Tie) (grid lower : Nat) : Option Nat :=
  let upper := lower + 1
  match i.contains (lower * grid), i.contains (upper * grid) with
  | true, false => some lower
  | false, true => some upper
  | false, false => none
  | true, true =>
    let fromLower := 2 * (i.value - lower * grid * Nat.pow 2 1076)
    let width := grid * Nat.pow 2 1076
    if fromLower < width then some lower
    else if width < fromLower then some upper
    else match tie with
      | .up => some upper
      | .even => some (lower + lower % 2)

/-- The decimal `coefficient * 10 ^ exponent`, without zeros at the end. -/
def ofCoefficient (coefficient : Nat) (exponent : Int) : Decimal :=
  let all := Text.digits coefficient
  { digits := (all.reverse.dropWhile (· == '0')).reverse
    point := all.length + exponent }

/-- Tries `length`, `length + 1`, ... digits, `more` lengths in all. The number has `places`
digits before the point once it is multiplied by `10 ^ 350`. -/
def shortestFrom (i : Interval) (tie : Tie) (places length : Nat) : (more : Nat) → Decimal
  | 0 => ⟨['0'], 1⟩
  | more + 1 =>
    let grid := Nat.pow 10 (places - length)
    match i.pick? tie grid (i.value / (Nat.pow 2 1076 * grid)) with
    | some coefficient => ofCoefficient coefficient ((places - length : Nat) - (350 : Int))
    | none => shortestFrom i tie places (length + 1) more

/-- The shortest decimal that reads back as a finite, non-zero double. -/
def shortest (tie : Tie) (x : Double) : Decimal :=
  let i := Interval.ofDouble x
  shortestFrom i tie (Text.digitCount (i.value / Nat.pow 2 1076)) 1 17

/-- Positional notation; a whole number has no point. -/
def plain (d : Decimal) : List Char :=
  let count : Int := d.digits.length
  if d.point ≤ 0 then '0' :: '.' :: List.replicate (-d.point).toNat '0' ++ d.digits
  else if count ≤ d.point then d.digits ++ List.replicate (d.point - count).toNat '0'
  else d.digits.take d.point.toNat ++ '.' :: d.digits.drop d.point.toNat

/-- Scientific notation, with a sign before the exponent. -/
def scientific (d : Decimal) : List Char :=
  let exponent := d.point - 1
  let mantissa := match d.digits with
    | first :: second :: rest => first :: '.' :: second :: rest
    | short => short
  mantissa ++ 'e' :: (if exponent < 0 then '-' else '+') :: Text.digits exponent.natAbs

end Decimal

/-- The text of a double as a field value: shortest digits, never an exponent, no point in a
whole number. -/
def Double.text (x : Double) : List Char :=
  if x.isNaN then ['N', 'a', 'N']
  else
    let sign := if x.isNegative then ['-'] else []
    if x.isInfinite then sign ++ ['i', 'n', 'f']
    else if x.isZero then sign ++ ['0']
    else sign ++ (Decimal.shortest .up x).plain

end DocumentClient
