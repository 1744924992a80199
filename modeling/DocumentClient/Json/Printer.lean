import DocumentClient.Json.Basic
import DocumentClient.Number.Shortest
/-!
# Writing JSON

`Json.text` writes a document without blanks, in the order it has.
-/

namespace DocumentClient

/-- The text of a finite double as a JSON number: at least one decimal, positional from `1e-5`
up to below `1e16` and scientific elsewhere. -/
def Double.jsonText (x : Double) : List Char :=
  let sign := if x.isNegative then ['-'] else []
  if x.isZero then sign ++ ['0', '.', '0']
  else
    let d := Decimal.shortest .even x
    if d.point < -4 ∨ 16 < d.point then sign ++ d.scientific
    else if d.digits.length ≤ d.point then sign ++ d.plain ++ ['.', '0']
    else sign ++ d.plain

namespace Json

def Number.text : Number → List Char
  | .integer n _ => Text.integer n
  | .real x _ => x.jsonText

/-- A digit below sixteen, in small letters. -/
def hexDigit (n : Nat) : Char :=
  if n < 10 then Char.ofNat (48 + n) else Char.ofNat (87 + n)

/-- One character inside quotes. Only quotes, backslashes and control characters are escaped. -/
def escape (c : Char) : List Char :=
  if c = '\x22' then ['\x5c', '\x22']
  else if c = '\x5c' then ['\x5c', '\x5c']
  else if c = '\x08' then ['\x5c', 'b']
  else if c = '\x0c' then ['\x5c', 'f']
  else if c = '\n' then ['\x5c', 'n']
  else if c = '\r' then ['\x5c', 'r']
  else if c = '\t' then ['\x5c', 't']
  else if c.toNat < 0x20 then
    ['\x5c', 'u', '0', '0', hexDigit (c.toNat / 16), hexDigit (c.toNat % 16)]
  else [c]

/-- A text in quotes. -/
def quoted (text : String) : List Char :=
  '\x22' :: text.toList.flatMap escape ++ ['\x22']

mutual

/-- The compact text of a document. -/
def text : Json → List Char
  | .null => ['n', 'u', 'l', 'l']
  | .bool true => ['t', 'r', 'u', 'e']
  | .bool false => ['f', 'a', 'l', 's', 'e']
  | .number n => n.text
  | .string s => quoted s
  | .array [] => ['[', ']']
  | .array (item :: items) => '[' :: text item ++ itemsText items
  | .object [] => ['\x7b', '\x7d']
  | .object ((name, value) :: members) =>
    '\x7b' :: quoted name ++ ':' :: text value ++ membersText members

/-- The items after the first one, each after a comma, and the closing bracket. -/
def itemsText : List Json → List Char
  | [] => [']']
  | item :: items => ',' :: text item ++ itemsText items

/-- The members after the first one, each after a comma, and the closing brace. -/
def membersText : List (String × Json) → List Char
  | [] => ['\x7d']
  | (name, value) :: members => ',' :: quoted name ++ ':' :: text value ++ membersText members

end

end Json

end DocumentClient
