import DocumentClient.Json.Basic
import DocumentClient.Text.Integer
/-!
# JSON texts

A `Json.Draft` is a document as it stands in a text: the literals of its numbers are not yet
valued, repeated members are all there, and a string with a surrogate escape that has no
partner carries no text. Whoever reads a draft values the parts that it needs, so a part that
nobody needs may hold numbers and strings that have no value, at any depth of nesting.

`Draft.read?` reads a text, `Draft.json?` values a draft as a whole.
-/

namespace DocumentClient.Json

/-- A number literal. The exponent has a sign, negative or not, and its digits. -/
structure Literal where
  negative : Bool
  whole : List Char
  fraction : List Char
  exponent : Option (Bool × List Char)

inductive Draft where
  | null
  | bool (value : Bool)
  | number (literal : Literal)
  | string (text : Option String)
  | array (items : List Draft)
  | object (members : List (Option String × Draft))

instance : Inhabited Draft := ⟨.null⟩

/-! ## Characters of a string -/

/-- The value of a hexadecimal digit of either case. -/
def hexValue? (c : Char) : Option Nat :=
  if '0' ≤ c ∧ c ≤ '9' then some (c.toNat - 48)
  else if 'a' ≤ c ∧ c ≤ 'f' then some (c.toNat - 87)
  else if 'A' ≤ c ∧ c ≤ 'F' then some (c.toNat - 55)
  else none

/-- The value of four hexadecimal digits. -/
def hexValues? (a b c d : Char) : Option Nat := do
  let a ← hexValue? a
  let b ← hexValue? b
  let c ← hexValue? c
  let d ← hexValue? d
  return ((a * 16 + b) * 16 + c) * 16 + d

/-- The character that a one-letter escape stands for. -/
def unescape? (c : Char) : Option Char :=
  if c = '\x22' ∨ c = '\x5c' ∨ c = '/' then some c
  else if c = 'b' then some '\x08'
  else if c = 'f' then some '\x0c'
  else if c = 'n' then some '\n'
  else if c = 'r' then some '\r'
  else if c = 't' then some '\t'
  else none

/-- Reads the rest of a string after its opening quote, as code points and surrogates. -/
def readPoints? : List Char → Option (List Nat × List Char)
  | [] => none
  | '\x22' :: rest => some ([], rest)
  | '\x5c' :: 'u' :: a :: b :: c :: d :: rest =>
    match hexValues? a b c d with
    | some point => (readPoints? rest).map fun found => (point :: found.1, found.2)
    | none => none
  | '\x5c' :: c :: rest =>
    match unescape? c with
    | some c => (readPoints? rest).map fun found => (c.toNat :: found.1, found.2)
    | none => none
  | c :: rest =>
    if c.toNat < 0x20 then none
    else (readPoints? rest).map fun found => (c.toNat :: found.1, found.2)

/-- Joins surrogates in pairs. A surrogate without its partner has no character. -/
def joinSurrogates? : List Nat → Option (List Char)
  | [] => some []
  | [point] => if 0xD800 ≤ point ∧ point ≤ 0xDFFF then none else some [Char.ofNat point]
  | high :: low :: rest =>
    if 0xD800 ≤ high ∧ high ≤ 0xDBFF then
      if 0xDC00 ≤ low ∧ low ≤ 0xDFFF then
        (joinSurrogates? rest).map
          (Char.ofNat (0x10000 + (high - 0xD800) * 0x400 + (low - 0xDC00)) :: ·)
      else none
    else if 0xDC00 ≤ high ∧ high ≤ 0xDFFF then none
    else (joinSurrogates? (low :: rest)).map (Char.ofNat high :: ·)

/-- Reads a string after its opening quote. -/
def readString? (text : List Char) : Option (Option String × List Char) :=
  (readPoints? text).map fun found => ((joinSurrogates? found.1).map String.ofList, found.2)

/-! ## Numbers -/

/-- Reads the digits of the part before the point: a zero, or digits that start with none. -/
def readWhole? (text : List Char) : Option (List Char × List Char) :=
  match text.takeWhile Char.isDigit with
  | [] => none
  | '0' :: _ :: _ => none
  | digits => some (digits, text.dropWhile Char.isDigit)

/-- Reads the point and the digits after it, if there is a point. -/
def readFraction? : List Char → Option (List Char × List Char)
  | '.' :: rest =>
    match rest.takeWhile Char.isDigit with
    | [] => none
    | digits => some (digits, rest.dropWhile Char.isDigit)
  | text => some ([], text)

/-- Reads one or more digits of an exponent of this sign. -/
def readExponentDigits? (negative : Bool) (text : List Char) :
    Option (Option (Bool × List Char) × List Char) :=
  match text.takeWhile Char.isDigit with
  | [] => none
  | digits => some (some (negative, digits), text.dropWhile Char.isDigit)

/-- Reads an exponent, if there is one. -/
def readExponent? : List Char → Option (Option (Bool × List Char) × List Char)
  | [] => some (none, [])
  | c :: rest =>
    if c = 'e' ∨ c = 'E' then
      match rest with
      | '+' :: rest => readExponentDigits? false rest
      | '-' :: rest => readExponentDigits? true rest
      | rest => readExponentDigits? false rest
    else some (none, c :: rest)

/-- Reads a number after its sign. -/
def readLiteral? (negative : Bool) (text : List Char) : Option (Draft × List Char) := do
  let (whole, rest) ← readWhole? text
  let (fraction, rest) ← readFraction? rest
  let (exponent, rest) ← readExponent? rest
  return (.number ⟨negative, whole, fraction, exponent⟩, rest)

/-! ## Documents -/

/-- The four blank characters of JSON. -/
def isSpace (c : Char) : Bool :=
  c == ' ' || c == '\t' || c == '\n' || c == '\r'

def skipSpaces (text : List Char) : List Char :=
  text.dropWhile isSpace

mutual

/-- Reads a value, which blanks may precede. The first argument bounds the number of steps. -/
def readValue? : Nat → List Char → Option (Draft × List Char)
  | 0, _ => none
  | steps + 1, text =>
    match skipSpaces text with
    | 'n' :: 'u' :: 'l' :: 'l' :: rest => some (.null, rest)
    | 't' :: 'r' :: 'u' :: 'e' :: rest => some (.bool true, rest)
    | 'f' :: 'a' :: 'l' :: 's' :: 'e' :: rest => some (.bool false, rest)
    | '\x22' :: rest => (readString? rest).map fun found => (.string found.1, found.2)
    | '[' :: rest =>
      match skipSpaces rest with
      | ']' :: rest => some (.array [], rest)
      | rest => (readItems? steps rest).map fun found => (.array found.1, found.2)
    | '\x7b' :: rest =>
      match skipSpaces rest with
      | '\x7d' :: rest => some (.object [], rest)
      | rest => (readMembers? steps rest).map fun found => (.object found.1, found.2)
    | '-' :: rest => readLiteral? true rest
    | rest => readLiteral? false rest

/-- Reads one or more items and the closing bracket. -/
def readItems? : Nat → List Char → Option (List Draft × List Char)
  | 0, _ => none
  | steps + 1, text =>
    match readValue? steps text with
    | none => none
    | some (item, rest) =>
      match skipSpaces rest with
      | ',' :: rest => (readItems? steps rest).map fun found => (item :: found.1, found.2)
      | ']' :: rest => some ([item], rest)
      | _ => none

/-- Reads one or more members and the closing brace. -/
def readMembers? : Nat → List Char → Option (List (Option String × Draft) × List Char)
  | 0, _ => none
  | steps + 1, text =>
    match skipSpaces text with
    | '\x22' :: rest =>
      match readString? rest with
      | none => none
      | some (name, rest) =>
        match skipSpaces rest with
        | ':' :: rest =>
          match readValue? steps rest with
          | none => none
          | some (value, rest) =>
            match skipSpaces rest with
            | ',' :: rest =>
              (readMembers? steps rest).map fun found => ((name, value) :: found.1, found.2)
            | '\x7d' :: rest => some ([(name, value)], rest)
            | _ => none
        | _ => none
    | _ => none

end

/-- Reads a text that holds one document, with blanks around it. Every two steps of the reader
take a character, so the bound is never met. -/
def Draft.read? (text : List Char) : Option Draft :=
  match readValue? (2 * text.length + 2) text with
  | some (draft, rest) => if (skipSpaces rest).isEmpty then some draft else none
  | none => none

/-! ## Values of numbers -/

/-- Digits are taken into the significand as long as it stays below `2 ^ 64`. The result is the
significand and the digits left over. -/
def takeDigits (significand : Nat) : List Char → Nat × List Char
  | [] => (significand, [])
  | c :: rest =>
    let next := 10 * significand + (c.toNat - 48)
    if next ≤ 18446744073709551615 then takeDigits next rest else (significand, c :: rest)

/-- The number `x * 10 ^ exponent`, by one multiplication or division with a power of ten that
is itself rounded; an exponent below -308 is taken in steps of 308. Nothing stands for a number
that is too large. -/
def scaleByTen? (x : Double) (exponent : Int) : Option Double :=
  if x.isZero then some x
  else if 308 < exponent then none
  else if 0 ≤ exponent then
    let scaled := x.mul (Double.ofInt (Nat.pow 10 exponent.toNat))
    if scaled.isInfinite then none else some scaled
  else if -308 ≤ exponent then some (x.div (Double.ofInt (Nat.pow 10 (-exponent).toNat)))
  else scaleByTen? (x.div (Double.ofInt (Nat.pow 10 308))) (exponent + 308)
termination_by (-exponent).toNat

/-- The value of an exponent. -/
def exponentValue : Option (Bool × List Char) → Int
  | none => 0
  | some (negative, digits) =>
    let n : Nat := digits.foldl (fun value c => 10 * value + (c.toNat - 48)) 0
    if negative then -(n : Int) else n

/-- The double of a literal: its leading digits as an integer below `2 ^ 64`, scaled. -/
def Literal.real? (l : Literal) : Option Double :=
  let (whole, dropped) := takeDigits 0 l.whole
  let (significand, unused) := takeDigits whole l.fraction
  let places : Int := (dropped.length : Int) - (l.fraction.length - unused.length : Nat)
  (scaleByTen? (Double.ofInt significand) (places + exponentValue l.exponent)).map fun x =>
    if l.negative then x.neg else x

/-- The number of a literal. An integer literal out of the range of integers is a double, and
so is minus zero. -/
def Literal.number? (l : Literal) : Option Number :=
  if l.fraction.isEmpty && l.exponent.isNone then
    let n : Nat := l.whole.foldl (fun value c => 10 * value + (c.toNat - 48)) 0
    if l.negative then
      if n = 0 then Number.ofDouble? (Double.zero true)
      else if h : n ≤ 9223372036854775808 then some (.integer (-(n : Int)) (by omega))
      else l.real?.bind Number.ofDouble?
    else if h : n ≤ 18446744073709551615 then some (.integer n (by omega))
    else l.real?.bind Number.ofDouble?
  else l.real?.bind Number.ofDouble?

/-! ## Values of documents -/

/-- How many levels of arrays and objects a document may have. -/
def maxDepth : Nat := 127

/-- The document of a draft that has at most `depth` levels, with sorted members. -/
def Draft.json? : (depth : Nat) → Draft → Option Json
  | _, .null => some .null
  | _, .bool b => some (.bool b)
  | _, .number l => l.number?.map .number
  | _, .string s => s.map .string
  | 0, .array _ => none
  | 0, .object _ => none
  | depth + 1, .array items => (items.mapM (Draft.json? depth)).map .array
  | depth + 1, .object members =>
    (members.mapM fun (member : Option String × Draft) => do
      let name ← member.1
      let value ← Draft.json? depth member.2
      return (name, value)).map fun members => .object (sortMembers members)

/-- Reads a free-form document. -/
def read? (text : List Char) : Option Json :=
  (Draft.read? text).bind (Draft.json? maxDepth)

end DocumentClient.Json
