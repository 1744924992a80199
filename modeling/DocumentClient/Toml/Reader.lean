import DocumentClient.Toml.Document
import DocumentClient.Toml.Scalar
/-!
# Reading TOML

`Toml.read?` reads a document of TOML 1.0 into the table that it makes. A byte order mark at the
start is skipped. Arrays and tables inside one another, and keys with points, may be less than
80 deep. An argument `steps` bounds the number of steps of a reader; the length of the text is
always enough.
-/

namespace DocumentClient.Toml

/-- How deep values and keys may go. -/
def maxDepth : Nat := 79

/-! ## Keys -/

/-- A character of a key without quotes. -/
def isBareKey (c : Char) : Bool :=
  c.isAlphanum || c == '_' || c == '-'

/-- Reads one part of a key. -/
def readSimpleKey? (text : List Char) : Option (String × List Char) :=
  match text with
  | '\x22' :: rest =>
    (readBasic? (text.length + 1) rest).map fun found => (String.ofList found.1, found.2)
  | '\x27' :: rest => (readPlain? rest).map fun found => (String.ofList found.1, found.2)
  | text =>
    let key := text.takeWhile isBareKey
    if key.isEmpty then none else some (String.ofList key, text.dropWhile isBareKey)

/-- Reads the parts of a key, with blanks around each. -/
def readKeyParts? : (steps : Nat) → List Char → Option (List String × List Char)
  | 0, _ => none
  | steps + 1, text => do
    let (key, rest) ← readSimpleKey? (skipSpaces text)
    match skipSpaces rest with
    | '.' :: rest =>
      let (keys, rest) ← readKeyParts? steps rest
      return (key :: keys, rest)
    | rest => return ([key], rest)

/-- Reads a key. -/
def readKey? (text : List Char) : Option (List String × List Char) := do
  let (keys, rest) ← readKeyParts? (text.length + 1) text
  if keys.length ≤ maxDepth then some (keys, rest) else none

/-- Reads a key, the equals sign and the blanks after it, as the parts before the last one and
the last one. -/
def readKeySign? (text : List Char) : Option ((List String × String) × List Char) := do
  let (keys, rest) ← readKey? text
  let key ← keys.getLast?
  let rest ← dropMark? '=' rest
  return ((keys.dropLast, key), skipSpaces rest)

/-! ## Values -/

mutual

/-- Reads a value that goes at most `depth` deep. -/
def readValue? : (steps depth : Nat) → List Char → Option (Toml × List Char)
  | 0, _, _ => none
  | steps + 1, depth, text =>
    match text with
    | '[' :: rest =>
      match depth with
      | 0 => none
      | depth + 1 => (readItems? steps depth rest).map fun found => (.array found.1, found.2)
    | '\x7b' :: rest =>
      match depth with
      | 0 => none
      | depth + 1 =>
        match skipSpaces rest with
        | '\x7d' :: rest => some (.table [], rest)
        | rest => do
          let (pairs, rest) ← readPairs? steps depth rest
          let table ← inlineTable? pairs
          return (table, rest)
    | 't' :: 'r' :: 'u' :: 'e' :: rest => some (.bool true, rest)
    | 'f' :: 'a' :: 'l' :: 's' :: 'e' :: rest => some (.bool false, rest)
    | '\x22' :: _ => (readString? text).map fun found => (.string (String.ofList found.1), found.2)
    | '\x27' :: _ => (readString? text).map fun found => (.string (String.ofList found.1), found.2)
    | text => readNumeric? text

/-- Reads items and the closing bracket. There may be a comma after the last item, and blanks,
line endings and comments anywhere. -/
def readItems? : (steps depth : Nat) → List Char → Option (List Toml × List Char)
  | 0, _, _ => none
  | steps + 1, depth, text =>
    match skipLines false text with
    | ']' :: rest => some ([], rest)
    | text =>
      match readValue? steps depth text with
      | none => none
      | some (item, rest) =>
        match skipLines false rest with
        | ',' :: rest =>
          (readItems? steps depth rest).map fun found => (item :: found.1, found.2)
        | ']' :: rest => some ([item], rest)
        | _ => none

/-- Reads one or more pairs and the closing brace, all on one line. -/
def readPairs? : (steps depth : Nat) → List Char →
    Option (List (List String × String × Toml) × List Char)
  | 0, _, _ => none
  | steps + 1, depth, text =>
    match readKeySign? text with
    | none => none
    | some ((path, key), rest) =>
      match readValue? steps depth rest with
      | none => none
      | some (value, rest) =>
        match skipSpaces rest with
        | ',' :: rest =>
          (readPairs? steps depth rest).map fun found => ((path, key, value) :: found.1, found.2)
        | '\x7d' :: rest => some ([(path, key, value)], rest)
        | _ => none

end

/-! ## Statements -/

/-- What follows the rest of a line: blanks, a comment and the line ending, or the end of the
text. -/
def dropLineEnd? (text : List Char) : Option (List Char) :=
  let rest := match skipSpaces text with
    | '#' :: rest => rest.dropWhile isPrintable
    | rest => rest
  if rest.isEmpty then some [] else dropNewline? rest

/-- Reads a statement. -/
def readStatement? (text : List Char) : Option (Statement × List Char) :=
  match text with
  | '[' :: '[' :: rest => do
    let (path, rest) ← readKey? rest
    let rest ← dropMark? ']' rest
    let rest ← dropMark? ']' rest
    return (.element path, rest)
  | '[' :: rest => do
    let (path, rest) ← readKey? rest
    let rest ← dropMark? ']' rest
    return (.table path, rest)
  | text => do
    let ((path, key), rest) ← readKeySign? text
    let (value, rest) ← readValue? (2 * rest.length + 2) maxDepth rest
    return (.pair path key value, rest)

/-- Reads the statements of a document, each on a line of its own. -/
def readStatements? : (steps : Nat) → List Char → Option (List Statement)
  | 0, _ => none
  | steps + 1, text =>
    if text.isEmpty then some []
    else
      match dropLineEnd? text with
      | some rest => readStatements? steps rest
      | none => do
        let (statement, rest) ← readStatement? (skipSpaces text)
        let rest ← dropLineEnd? rest
        let others ← readStatements? steps rest
        return statement :: others

/-- Reads a document. -/
def read? (text : String) : Option (List (String × Toml)) := do
  let characters := match text.toList with
    | '\uFEFF' :: rest => rest
    | characters => characters
  let statements ← readStatements? (characters.length + 1) characters
  tablesOf? statements

end DocumentClient.Toml
