import DocumentClient.Text.Blank
import DocumentClient.Text.Integer
/-!
# Dates and times of day

Dates of the proleptic Gregorian calendar and times without a zone. A leap second is a billion
nanoseconds or more. A time can have it after any second, but `TimeOfDay.of?` gives it only at the
end of a minute. `Date.text` and `DateTime.text` write them; `Date.read?` and `DateTime.read?` read
what they write, and also allow blanks before and after every part, fewer digits, and a sign before
the year.
-/

namespace DocumentClient

open Text (integer paddedDigits trimStart)

def isLeapYear (year : Int) : Bool :=
  year % 4 == 0 && (year % 100 != 0 || year % 400 == 0)

def daysInMonth (year : Int) : Nat → Nat
  | 1 | 3 | 5 | 7 | 8 | 10 | 12 => 31
  | 4 | 6 | 9 | 11 => 30
  | 2 => if isLeapYear year then 29 else 28
  | _ => 0

/-- A date within 262143 years of the year zero. -/
structure Date where
  year : Int
  month : Nat
  day : Nat
  year_ge : -262143 ≤ year
  year_le : year ≤ 262142
  day_pos : 1 ≤ day
  day_le : day ≤ daysInMonth year month
deriving DecidableEq

/-- The date with these numbers, if there is one. -/
def Date.of? (year : Int) (month day : Nat) : Option Date :=
  if h : -262143 ≤ year ∧ year ≤ 262142 ∧ 1 ≤ day ∧ day ≤ daysInMonth year month then
    some ⟨year, month, day, h.1, h.2.1, h.2.2.1, h.2.2.2⟩
  else none

/-- A time of day, to the nanosecond. -/
structure TimeOfDay where
  hour : Nat
  minute : Nat
  second : Nat
  nanosecond : Nat
  hour_lt : hour < 24
  minute_lt : minute < 60
  second_lt : second < 60
  nanosecond_lt : nanosecond < 2000000000
deriving DecidableEq

/-- The time with these numbers, if there is one. Only second 59 has a leap second. -/
def TimeOfDay.of? (hour minute second nanosecond : Nat) : Option TimeOfDay :=
  if h : hour < 24 ∧ minute < 60 ∧ second < 60 ∧ nanosecond < 2000000000 ∧
      (nanosecond < 1000000000 ∨ second = 59) then
    some ⟨hour, minute, second, nanosecond, h.1, h.2.1, h.2.2.1, h.2.2.2.1⟩
  else none

/-- A date and a time of day. -/
structure DateTime where
  date : Date
  time : TimeOfDay
deriving DecidableEq

/-! ## Writing -/

/-- A year takes four digits; outside 0 to 9999 it also carries its sign. -/
def Date.yearText (year : Int) : List Char :=
  if 0 ≤ year ∧ year ≤ 9999 then paddedDigits 4 year.toNat
  else (if year < 0 then '-' else '+') :: paddedDigits 4 year.natAbs

/-- The date as year, month and day. -/
def Date.text (d : Date) : List Char :=
  Date.yearText d.year ++ '-' :: paddedDigits 2 d.month ++ '-' :: paddedDigits 2 d.day

/-- The fraction of a second in three, six or nine digits, whichever is enough; nothing for a
whole second. -/
def TimeOfDay.fractionText (nanosecond : Nat) : List Char :=
  if nanosecond = 0 then []
  else if nanosecond % 1000000 = 0 then '.' :: paddedDigits 3 (nanosecond / 1000000)
  else if nanosecond % 1000 = 0 then '.' :: paddedDigits 6 (nanosecond / 1000)
  else '.' :: paddedDigits 9 nanosecond

/-- The time as hour, minute and second. A leap second is written as the next second, that is as
second 60 at the end of a minute. -/
def TimeOfDay.text (t : TimeOfDay) : List Char :=
  paddedDigits 2 t.hour ++ ':' :: paddedDigits 2 t.minute ++
    ':' :: paddedDigits 2 (t.second + t.nanosecond / 1000000000) ++
    TimeOfDay.fractionText (t.nanosecond % 1000000000)

/-- The date and the time with a character between them. -/
def DateTime.text (separator : Char) (t : DateTime) : List Char :=
  t.date.text ++ separator :: t.time.text

/-! ## Reading -/

/-- Reads one to `most` digits. -/
def readShortNumber? (most : Nat) (text : List Char) : Option (Nat × List Char) :=
  let digits := (text.take most).takeWhile Char.isDigit
  (Text.readDigits? digits).map fun n => (n, text.drop digits.length)

/-- Reads a number of one or two digits, which blanks may precede. -/
def readPart? (text : List Char) : Option (Nat × List Char) :=
  readShortNumber? 2 (trimStart text)

/-- Reads one character, which blanks may precede. -/
def readMark? (mark : Char) (text : List Char) : Option (List Char) :=
  match trimStart text with
  | c :: rest => if c = mark then some rest else none
  | [] => none

/-- Reads a year: up to four digits, or a sign and any number of digits. -/
def readYear? (text : List Char) : Option (Int × List Char) :=
  match trimStart text with
  | '-' :: rest => (readShortNumber? rest.length rest).map fun found => (-(found.1 : Int), found.2)
  | '+' :: rest => (readShortNumber? rest.length rest).map fun found => (found.1, found.2)
  | rest => (readShortNumber? 4 rest).map fun found => (found.1, found.2)

/-- Reads a date from the start of a text. -/
def Date.readStart? (text : List Char) : Option (Date × List Char) := do
  let (year, rest) ← readYear? text
  let rest ← readMark? '-' rest
  let (month, rest) ← readPart? rest
  let rest ← readMark? '-' rest
  let (day, rest) ← readPart? rest
  let date ← Date.of? year month day
  return (date, rest)

/-- Reads a date. -/
def Date.read? (text : List Char) : Option Date := do
  let (date, rest) ← Date.readStart? text
  if (trimStart rest).isEmpty then some date else none

/-- Reads the fraction of a second. Digits after the ninth are dropped. -/
def TimeOfDay.readFraction? : List Char → Option (Nat × List Char)
  | '.' :: rest =>
    let digits := (rest.take 9).takeWhile Char.isDigit
    (Text.readDigits? digits).map fun n =>
      (n * Nat.pow 10 (9 - digits.length), (rest.drop digits.length).dropWhile Char.isDigit)
  | text => some (0, text)

/-- The time with these numbers, second 60 being a leap second. -/
def TimeOfDay.ofClock? (hour minute second nanosecond : Nat) : Option TimeOfDay :=
  if second = 60 then TimeOfDay.of? hour minute 59 (1000000000 + nanosecond)
  else TimeOfDay.of? hour minute second nanosecond

/-- Reads a time of day from the start of a text. -/
def TimeOfDay.readStart? (text : List Char) : Option (TimeOfDay × List Char) := do
  let (hour, rest) ← readPart? text
  let rest ← readMark? ':' rest
  let (minute, rest) ← readPart? rest
  let rest ← readMark? ':' rest
  let (second, rest) ← readPart? rest
  let (nanosecond, rest) ← TimeOfDay.readFraction? rest
  let time ← TimeOfDay.ofClock? hour minute second nanosecond
  return (time, rest)

/-- Reads a date, the letter `T` and a time of day. -/
def DateTime.read? (text : List Char) : Option DateTime := do
  let (date, rest) ← Date.readStart? text
  let rest ← readMark? 'T' rest
  let (time, rest) ← TimeOfDay.readStart? rest
  if (trimStart rest).isEmpty then some ⟨date, time⟩ else none

end DocumentClient
