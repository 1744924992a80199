import DocumentClient.Calendar
import DocumentClient.Json.Draft
import DocumentClient.Number.Reading
import DocumentClient.Toml.Basic
/-!
# TOML strings, numbers and dates

Readers for the values of TOML 1.0 that hold no other values. Each takes the text from where
the value starts and gives the value and the rest of the text. Those that take an argument
`steps` take at most that many characters.
-/

namespace DocumentClient.Toml

/-! ## Characters -/

/-- A blank inside a line. -/
def isSpace (c : Char) : Bool :=
  c == ' ' || c == '\t'

def skipSpaces (text : List Char) : List Char :=
  text.dropWhile isSpace

/-- A character that may stand in comments and strings: a tab, or no control character. -/
def isPrintable (c : Char) : Bool :=
  c == '\t' || (' ' ≤ c && c != '\x7f')

/-- What follows a line ending. -/
def dropNewline? : List Char → Option (List Char)
  | '\n' :: rest => some rest
  | '\r' :: '\n' :: rest => some rest
  | _ => none

/-- The text after blanks, line endings and, if `inComment`, the rest of a comment. -/
def skipLines : (inComment : Bool) → List Char → List Char
  | _, [] => []
  | _, '\r' :: '\n' :: rest => skipLines false rest
  | inComment, c :: rest =>
    if c = '\n' then skipLines false rest
    else if inComment then if isPrintable c then skipLines true rest else c :: rest
    else if isSpace c then skipLines false rest
    else if c = '#' then skipLines true rest
    else c :: rest

/-- The text after blanks and line endings. -/
def skipBlankLines : List Char → List Char
  | [] => []
  | '\r' :: '\n' :: rest => skipBlankLines rest
  | c :: rest => if isSpace c || c == '\n' then skipBlankLines rest else c :: rest

/-! ## Strings -/

/-- The value of hexadecimal digits. -/
def hexNumber? (digits : List Char) : Option Nat :=
  digits.foldl (fun value c => do return 16 * (← value) + (← Json.hexValue? c)) (some 0)

/-- The character of this many hexadecimal digits, and the rest. -/
def readScalar? (count : Nat) (text : List Char) : Option (Char × List Char) := do
  let digits := text.take count
  if digits.length < count then none
  else
    let point ← hexNumber? digits
    if point.isValidChar then some (Char.ofNat point, text.drop count) else none

/-- The character that an escape after its backslash stands for. -/
def readEscape? : List Char → Option (Char × List Char)
  | [] => none
  | c :: rest =>
    if c = '\x22' ∨ c = '\x5c' then some (c, rest)
    else if c = 'b' then some ('\x08', rest)
    else if c = 't' then some ('\t', rest)
    else if c = 'n' then some ('\n', rest)
    else if c = 'f' then some ('\x0c', rest)
    else if c = 'r' then some ('\r', rest)
    else if c = 'u' then readScalar? 4 rest
    else if c = 'U' then readScalar? 8 rest
    else none

/-- Reads the rest of a string in double quotes. -/
def readBasic? : (steps : Nat) → List Char → Option (List Char × List Char)
  | 0, _ => none
  | _, [] => none
  | steps + 1, c :: rest =>
    if c = '\x22' then some ([], rest)
    else if c = '\x5c' then do
      let (c, rest) ← readEscape? rest
      let (text, rest) ← readBasic? steps rest
      return (c :: text, rest)
    else if isPrintable c then (readBasic? steps rest).map fun found => (c :: found.1, found.2)
    else none

/-- Reads the rest of a string in single quotes. -/
def readPlain? : List Char → Option (List Char × List Char)
  | [] => none
  | c :: rest =>
    if c = '\x27' then some ([], rest)
    else if isPrintable c then (readPlain? rest).map fun found => (c :: found.1, found.2)
    else none

/-- The quotes at the end of a string of several lines that belong to it, if three or more
quotes of this kind stand here, and what follows the closing ones. -/
def closing? (quote : Char) (text : List Char) : Option (List Char × List Char) :=
  let count := (text.takeWhile (· == quote)).length
  if count < 3 then none
  else
    let inside := min (count - 3) 2
    some (List.replicate inside quote, text.drop (inside + 3))

/-- Reads the rest of a string of several lines. In double quotes a backslash starts an escape
or, at the end of a line, leaves out all blanks and line endings that follow. -/
def readLong? (quote : Char) : (steps : Nat) → List Char → Option (List Char × List Char)
  | 0, _ => none
  | _, [] => none
  | steps + 1, c :: rest =>
    match closing? quote (c :: rest) with
    | some found => some found
    | none =>
      match dropNewline? (c :: rest) with
      | some rest => (readLong? quote steps rest).map fun found => ('\n' :: found.1, found.2)
      | none =>
        if c = '\x5c' ∧ quote = '\x22' then
          match dropNewline? (skipSpaces rest) with
          | some rest => readLong? quote steps (skipBlankLines rest)
          | none => do
            let (c, rest) ← readEscape? rest
            let (text, rest) ← readLong? quote steps rest
            return (c :: text, rest)
        else if isPrintable c then
          (readLong? quote steps rest).map fun found => (c :: found.1, found.2)
        else none

/-- What follows a line ending, or the same text if there is none. -/
def dropFirstNewline (text : List Char) : List Char :=
  (dropNewline? text).getD text

/-- Reads a string of any of the four kinds. -/
def readString? (text : List Char) : Option (List Char × List Char) :=
  match text with
  | '\x22' :: '\x22' :: '\x22' :: rest =>
    readLong? '\x22' (text.length + 1) (dropFirstNewline rest)
  | '\x27' :: '\x27' :: '\x27' :: rest =>
    readLong? '\x27' (text.length + 1) (dropFirstNewline rest)
  | '\x22' :: rest => readBasic? (text.length + 1) rest
  | '\x27' :: rest => readPlain? rest
  | _ => none

/-! ## Numbers -/

/-- Reads the rest of a row of digits, in which single underscores may stand between digits. -/
def readMoreDigits (isDigit : Char → Bool) : List Char → List Char × List Char
  | '_' :: c :: rest =>
    if isDigit c then
      let (digits, rest) := readMoreDigits isDigit rest
      (c :: digits, rest)
    else ([], '_' :: c :: rest)
  | c :: rest =>
    if isDigit c then
      let (digits, rest) := readMoreDigits isDigit rest
      (c :: digits, rest)
    else ([], c :: rest)
  | [] => ([], [])

/-- Reads one or more digits. -/
def readDigits? (isDigit : Char → Bool) : List Char → Option (List Char × List Char)
  | [] => none
  | c :: rest =>
    if isDigit c then
      let (digits, rest) := readMoreDigits isDigit rest
      some (c :: digits, rest)
    else none

/-- Reads a zero, or digits that start with none. -/
def readWhole? : List Char → Option (List Char × List Char)
  | '0' :: rest => some (['0'], rest)
  | text => readDigits? Char.isDigit text

/-- Reads an exponent. -/
def readExponent? : List Char → Option (Int × List Char)
  | [] => none
  | c :: rest => do
    guard (c = 'e' ∨ c = 'E')
    let (negative, rest) := match rest with
      | '-' :: rest => (true, rest)
      | '+' :: rest => (false, rest)
      | rest => (false, rest)
    let (digits, rest) ← readDigits? Char.isDigit rest
    let n : Int := Text.digitsValue digits
    return (if negative then -n else n, rest)

/-- The sign at the start of a number, negative or not. -/
def readSign : List Char → Bool × List Char
  | '-' :: rest => (true, rest)
  | '+' :: rest => (false, rest)
  | text => (false, text)

/-- Reads the fraction and the exponent of a number, of which there is at least one. -/
def readFraction? (text : List Char) : Option (List Char × Int × List Char) :=
  match text with
  | '.' :: rest => do
    let (fraction, rest) ← readDigits? Char.isDigit rest
    match readExponent? rest with
    | some (exponent, rest) => return (fraction, exponent, rest)
    | none => return (fraction, 0, rest)
  | text => (readExponent? text).map fun found => ([], found)

/-- Reads a number with a fraction or an exponent, or a word for infinity or NaN. A positive
number that is too large is refused. -/
def readFloat? (text : List Char) : Option (Double × List Char) :=
  let (negative, rest) := readSign text
  match rest with
  | 'i' :: 'n' :: 'f' :: rest => some (.infinity negative, rest)
  | 'n' :: 'a' :: 'n' :: rest => some (.nan, rest)
  | rest => do
    let (whole, rest) ← readWhole? rest
    let (fraction, exponent, rest) ← readFraction? rest
    let digits := Text.digitsValue (whole ++ fraction)
    let x := Double.ofDecimal negative digits (exponent - fraction.length)
    if x.isInfinite && !negative then none else some (x, rest)

/-- An integer of 64 bits. -/
def inRange? (n : Int) : Option Int :=
  if -9223372036854775808 ≤ n ∧ n ≤ 9223372036854775807 then some n else none

/-- Reads the digits of an integer in this base. -/
def readBased? (base : Nat) (text : List Char) : Option (Int × List Char) := do
  let isDigit := fun c => (Json.hexValue? c).any (· < base)
  let (digits, rest) ← readDigits? isDigit text
  let n : Nat := digits.foldl (fun value c => base * value + (Json.hexValue? c).getD 0) 0
  let n ← inRange? n
  return (n, rest)

/-- Reads an integer: decimal with an optional sign, or hexadecimal, octal or binary. -/
def readInteger? : List Char → Option (Int × List Char)
  | '0' :: 'x' :: rest => readBased? 16 rest
  | '0' :: 'o' :: rest => readBased? 8 rest
  | '0' :: 'b' :: rest => readBased? 2 rest
  | text => do
    let (negative, rest) := readSign text
    let (digits, rest) ← readWhole? rest
    let n : Int := Text.digitsValue digits
    let n ← inRange? (if negative then -n else n)
    return (n, rest)

/-! ## Dates and times -/

/-- Reads exactly this many digits. -/
def readFixed? (count : Nat) (text : List Char) : Option (Nat × List Char) :=
  let digits := (text.take count).takeWhile Char.isDigit
  if digits.length = count then some (Text.digitsValue digits, text.drop count) else none

/-- Reads a character. -/
def dropMark? (mark : Char) : List Char → Option (List Char)
  | [] => none
  | c :: rest => if c = mark then some rest else none

/-- What follows a date that exists. -/
def dropDate? (text : List Char) : Option (List Char) := do
  let (year, rest) ← readFixed? 4 text
  let rest ← dropMark? '-' rest
  let (month, rest) ← readFixed? 2 rest
  let rest ← dropMark? '-' rest
  let (day, rest) ← readFixed? 2 rest
  guard (1 ≤ day ∧ day ≤ daysInMonth year month)
  return rest

/-- What follows an hour and a minute. -/
def dropMinute? (text : List Char) : Option (List Char) := do
  let (hour, rest) ← readFixed? 2 text
  guard (hour ≤ 23)
  let rest ← dropMark? ':' rest
  let (minute, rest) ← readFixed? 2 rest
  guard (minute ≤ 59)
  return rest

/-- What follows a time of day. A minute may have a second 60. -/
def dropTime? (text : List Char) : Option (List Char) := do
  let rest ← dropMinute? text
  let rest ← dropMark? ':' rest
  let (second, rest) ← readFixed? 2 rest
  guard (second ≤ 60)
  match rest with
  | '.' :: c :: more => if c.isDigit then return more.dropWhile Char.isDigit else return rest
  | rest => return rest

/-- What follows the distance from universal time, or the same text if there is none. -/
def dropOffset (text : List Char) : List Char :=
  match text with
  | [] => []
  | c :: rest =>
    if c = 'Z' ∨ c = 'z' then rest
    else if c = '+' ∨ c = '-' then (dropMinute? rest).getD text
    else text

/-- What follows the time of day after a date, or the same text if there is none. -/
def dropTimePart (text : List Char) : List Char :=
  match text with
  | [] => []
  | c :: rest =>
    if c = 'T' ∨ c = 't' ∨ c = ' ' then ((dropTime? rest).map dropOffset).getD text else text

/-- Reads a date, a time of day, or both. -/
def readDateTime? (text : List Char) : Option (List Char × List Char) :=
  (((dropDate? text).map dropTimePart).or (dropTime? text)).map fun rest =>
    (text.take (text.length - rest.length), rest)

/-- Reads a date or a number. -/
def readNumeric? (text : List Char) : Option (Toml × List Char) :=
  match readDateTime? text with
  | some (found, rest) => some (.dateTime (String.ofList found), rest)
  | none =>
    match readFloat? text with
    | some (x, rest) => some (.float x, rest)
    | none => (readInteger? text).map fun found => (.integer found.1, found.2)

end DocumentClient.Toml
