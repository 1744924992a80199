import DocumentClient.Text.Keyword
import DocumentClient.Text.Splitting
/-!
# Statements

The statements that the in-memory engine understands:

* `CREATE CLASS <name> [EXTENDS <parent>]`
* `CREATE PROPERTY <class>.<name> <type>`
* `CREATE INDEX <name> ON <class> (<field>, ...) UNIQUE|NOTUNIQUE`
* `INSERT INTO <class> SET <field> = <literal>, ...`
* `UPDATE <class> SET <field> = <literal>, ... [WHERE <field> = <literal>]`
* `DELETE FROM <class> [WHERE <field> = <literal>]`
* `SELECT FROM <class> [WHERE <field> = <literal>]`

`Statement.read?` takes a statement apart. What stands after `SET` and after `WHERE` stays a
text here, because it is read only once the class is known to exist; it holds no line feed.
-/

namespace DocumentClient.Memory

inductive Statement where
  | createClass (name : String) (parent : Option String)
  | createProperty (className name type : String)
  | createIndex (name className : String) (fields : List String) (unique : Bool)
  | insert (className : String) (assignments : List Char)
  | update (className : String) (assignments : List Char) (condition : Option (List Char))
  | delete (className : String) (condition : Option (List Char))
  | select (className : String) (condition : Option (List Char))
deriving DecidableEq

namespace Statement

open Text

/-- A text that is not empty and has no line feed. -/
def clause? (text : List Char) : Option (List Char) :=
  if text.isEmpty || text.contains '\n' then none else some text

/-- The text of a condition, if blanks and `WHERE` stand before it. -/
def whereClause? (text : List Char) : Option (List Char) :=
  (dropInnerWord? "where" text).bind clause?

/-- Nothing, or a condition. -/
def optionalWhere? : List Char → Option (Option (List Char))
  | [] => some none
  | text => (whereClause? text).map some

def readCreateClass? (text : List Char) : Option Statement := do
  let rest ← dropWord? "create" text
  let rest ← dropWord? "class" rest
  let (name, rest) ← readName? rest
  if rest.isEmpty then return .createClass (String.ofList name) none
  let rest ← dropInnerWord? "extends" rest
  let (parent, rest) ← readName? rest
  if rest.isEmpty then some (.createClass (String.ofList name) (some (String.ofList parent)))
  else none

/-- What follows a mark at the start of a text. -/
def dropMark? (mark : Char) : List Char → Option (List Char)
  | [] => none
  | c :: rest => if c = mark then some rest else none

def readCreateProperty? (text : List Char) : Option Statement := do
  let rest ← dropWord? "create" text
  let rest ← dropWord? "property" rest
  let (className, rest) ← readName? rest
  let rest ← dropMark? '.' rest
  let (name, rest) ← readName? rest
  let rest ← dropBlanks? rest
  let (type, rest) ← readName? rest
  if rest.isEmpty then
    some (.createProperty (String.ofList className) (String.ofList name) (String.ofList type))
  else none

/-- The longest name of an index, which may have points in it, and what follows it. -/
def readIndexName? (text : List Char) : Option (List Char × List Char) :=
  let inName := fun c => isWord c || c == '.'
  let name := text.takeWhile inName
  if name.isEmpty then none else some (name, text.dropWhile inName)

/-- Whether a text is the word for a unique or for another index. -/
def readUniqueness? (text : List Char) : Option Bool :=
  if dropKeyword? "unique".toList text = some [] then some true
  else if dropKeyword? "notunique".toList text = some [] then some false
  else none

/-- The names between commas that are not blank. -/
def fieldNames (text : List Char) : List String :=
  (((splitAt ',' text).map trim).filter fun name => !name.isEmpty).map String.ofList

def readCreateIndex? (text : List Char) : Option Statement := do
  let rest ← dropWord? "create" text
  let rest ← dropWord? "index" rest
  let (name, rest) ← readIndexName? rest
  let rest ← dropInnerWord? "on" rest
  let (className, rest) ← readName? rest
  let rest ← dropMark? '(' (trimStart rest)
  let (fields, rest) ← cutAt ')' rest
  let rest ← dropBlanks? rest
  let unique ← readUniqueness? rest
  return .createIndex (String.ofList name) (String.ofList className) (fieldNames fields) unique

def readInsert? (text : List Char) : Option Statement := do
  let rest ← dropWord? "insert" text
  let rest ← dropWord? "into" rest
  let (className, rest) ← readName? rest
  let rest ← dropInnerWord? "set" rest
  let assignments ← clause? rest
  return .insert (String.ofList className) assignments

/-- The shortest text of assignments that a condition or the end of the text follows, and the
condition. The text starts with no blank. Inside a run of blanks no condition is looked for,
because the whole run has been tried as the blanks before `WHERE`. -/
def cutWhere? : List Char → Option (List Char × Option (List Char))
  | [] => none
  | c :: rest =>
    if c = '\n' then none
    else
      match if isBlank c then none else whereClause? rest with
      | some condition => some ([c], some condition)
      | none =>
        if rest.isEmpty then some ([c], none)
        else (cutWhere? rest).map fun found => (c :: found.1, found.2)

/-- A blank in the place of assignments, and the condition after it. It is the last of the
blanks between `SET` and `WHERE` that is no line feed and has other blanks on both sides. -/
def cutBlank? (text : List Char) : Option (List Char × Option (List Char)) := do
  let between := (text.takeWhile isBlank).tail.dropLast
  let blank ← between.reverse.find? (· != '\n')
  let condition ← whereClause? text
  return ([blank], some condition)

/-- The assignments and the condition of an update, and before them the blanks after `SET`. A
condition without assignments before it counts only if the text cannot be read otherwise. -/
def cutUpdate? (text : List Char) : Option (List Char × Option (List Char)) := do
  let rest ← dropBlanks? text
  (cutWhere? rest).or (cutBlank? text)

def readUpdate? (text : List Char) : Option Statement := do
  let rest ← dropWord? "update" text
  let (className, rest) ← readName? rest
  let rest ← dropBlanks? rest
  let rest ← dropKeyword? "set".toList rest
  let (assignments, condition) ← cutUpdate? rest
  return .update (String.ofList className) assignments condition

def readDelete? (text : List Char) : Option Statement := do
  let rest ← dropWord? "delete" text
  let rest ← dropWord? "from" rest
  let (className, rest) ← readName? rest
  let condition ← optionalWhere? rest
  return .delete (String.ofList className) condition

def readSelect? (text : List Char) : Option Statement := do
  let rest ← dropWord? "select" text
  let rest ← dropWord? "from" rest
  let (className, rest) ← readName? rest
  let condition ← optionalWhere? rest
  return .select (String.ofList className) condition

/-- Reads a statement without blanks at its ends. -/
def read? (text : List Char) : Option Statement :=
  (readCreateClass? text).or <| (readCreateProperty? text).or <| (readCreateIndex? text).or <|
    (readInsert? text).or <| (readUpdate? text).or <| (readDelete? text).or <| readSelect? text

end Statement

end DocumentClient.Memory
