import DocumentClient.Value
import DocumentClient.Wire.Form
/-!
# Field values and records as JSON

A field value is written as an object with one member that is named for its kind, null as the
word `"Null"` alone. The fields of a record are an object in their order; of a repeated field
the first one gives the place and the last one the value.
-/

namespace DocumentClient.Wire

open Json (Draft)

/-! ## Identities -/

def writeRid (rid : RecordId) : Json :=
  .object [("cluster", .ofInt rid.cluster.toInt), ("position", .ofInt rid.position.toInt)]

def readRid? : (depth : Nat) → Draft → Option RecordId
  | 0, _ => none
  | _ + 1, draft => do
    match ← readMembers? ["cluster", "position"] draft with
    | [cluster, position] =>
      return ⟨← required? readInt32? cluster, ← required? readInt64? position⟩
    | _ => none

instance : Form RecordId := ⟨readRid?, writeRid⟩

/-! ## Writing -/

/-- An object with one member. -/
def tagged (tag : String) (content : Json) : Json :=
  .object [(tag, content)]

mutual

def writeValue : Value → Json
  | .null => .string "Null"
  | .bool b => tagged "Bool" (.bool b)
  | .int32 n => tagged "Int32" (.ofInt n.toInt)
  | .int64 n => tagged "Int64" (.ofInt n.toInt)
  | .double x => tagged "Float64" (.ofDouble x)
  | .decimal digits => tagged "Decimal" (.string digits)
  | .string text => tagged "String" (.string text)
  | .bytes content => tagged "Bytes" (list (fun byte => .ofInt byte.toNat) content)
  | .date d => tagged "Date" (.string (String.ofList d.text))
  | .dateTime t => tagged "DateTime" (.string (String.ofList (t.text 'T')))
  | .link rid => tagged "Link" (writeRid rid)
  | .embedded r => tagged "Embedded" (writeRecord r)
  | .array items => tagged "Array" (.array (writeItems items))
  | .json document => tagged "Json" document

def writeRecord : RecordOf Value → Json
  | ⟨rid, className, fields⟩ =>
    .object [
      ("rid", optional writeRid rid),
      ("class_name", optional .string className),
      ("fields", .object (writeFields fields))]

def writeFields : List (String × Value) → List (String × Json)
  | [] => []
  | (name, value) :: rest => (name, writeValue value) :: writeFields rest

def writeItems : List Value → List Json
  | [] => []
  | item :: rest => writeValue item :: writeItems rest

end

/-! ## Reading -/

/-- Reads a text and then what it says. -/
def readSaid? {α : Type} (read : List Char → Option α) (draft : Draft) : Option α :=
  (readText? draft).bind fun text => read text.toList

/-- Reads the content of a field value of the kind that a tag names, given the readers for the
items of an array and for a record. -/
def readContent? (items : Draft → Option (List Value)) (record : Draft → Option Record)
    (depth : Nat) (tag : String) (content : Draft) : Option Value :=
  if tag = "Null" then
    match content with
    | .null => some .null
    | _ => none
  else if tag = "Bool" then (readBool? content).map .bool
  else if tag = "Int32" then (readInt32? content).map .int32
  else if tag = "Int64" then (readInt64? content).map .int64
  else if tag = "Float64" then (readDouble? content).map .double
  else if tag = "Decimal" then (readText? content).map .decimal
  else if tag = "String" then (readText? content).map .string
  else if tag = "Bytes" then (readList? (fun _ => readByte?) depth content).map .bytes
  else if tag = "Date" then (readSaid? Date.read? content).map .date
  else if tag = "DateTime" then (readSaid? DateTime.read? content).map .dateTime
  else if tag = "Link" then (readRid? depth content).map .link
  else if tag = "Embedded" then (record content).map .embedded
  else if tag = "Array" then (items content).map .array
  else if tag = "Json" then (content.json? depth).map .json
  else none

mutual

/-- Reads a field value. -/
def readValue? : (depth : Nat) → Draft → Option Value
  | _, .string text => if text = some "Null" then some .null else none
  | depth + 1, .object [(some tag, content)] =>
    readContent? (readItems? depth) (readRecord? depth) depth tag content
  | _, _ => none

/-- Reads the items of an array. -/
def readItems? : (depth : Nat) → Draft → Option (List Value)
  | depth + 1, .array items => items.mapM (readValue? depth)
  | _, _ => none

/-- Reads a record. -/
def readRecord? : (depth : Nat) → Draft → Option (RecordOf Value)
  | 0, _ => none
  | depth + 1, draft => do
    match ← readMembers? ["rid", "class_name", "fields"] draft with
    | [rid, className, fields] => do
      let rid ← nullable? (readRid? depth) rid
      let className ← nullable? readText? className
      let fields ← required? (readFields? depth) fields
      return { RecordOf.ofFields fields with rid, className }
    | _ => none

/-- Reads the fields of a record. -/
def readFields? : (depth : Nat) → Draft → Option (List (String × Value))
  | depth + 1, .object members =>
    members.mapM fun (member : Option String × Draft) => do
      let name ← member.1
      let value ← readValue? depth member.2
      return (name, value)
  | _, _ => none

end

instance : Form Value := ⟨readValue?, writeValue⟩

instance : Form Record := ⟨readRecord?, writeRecord⟩

end DocumentClient.Wire
