import DocumentClient.Calendar
import DocumentClient.Json.Printer
import DocumentClient.Record.Basic
/-!
# Field values

What a field of a record can hold. `Value.text` is the display text, and `Value.equals` the
equality that conditions and unique indexes go by: values of different kinds differ, doubles
are compared as doubles are, and the fields of records are compared without regard to their
order.
-/

namespace DocumentClient

inductive Value where
  | null
  | bool (value : Bool)
  | int32 (value : Int32)
  | int64 (value : Int64)
  | double (value : Double)
  /-- A decimal number, by its digits. -/
  | decimal (digits : String)
  | string (text : String)
  | bytes (content : List UInt8)
  | date (value : Date)
  | dateTime (value : DateTime)
  /-- A reference to another stored record. -/
  | link (rid : RecordId)
  /-- A record inside its owner. -/
  | embedded (record : RecordOf Value)
  | array (items : List Value)
  /-- A free-form document, with its members sorted. -/
  | json (document : Json)

/-- A record whose fields hold field values. -/
abbrev Record := RecordOf Value

instance : Inhabited Value := ⟨.null⟩

namespace Value

/-- A value that may be absent; an absent one is null. -/
def ofOption : Option Value → Value
  | some value => value
  | none => null

/-- A text that may be absent. -/
def ofText? (text : Option String) : Value :=
  ofOption (text.map .string)

def isNull : Value → Bool
  | null => true
  | _ => false

/-- The text of a string. -/
def asString? : Value → Option String
  | string text => some text
  | _ => none

/-- The integer of an integer value or of a string that is a decimal integer. -/
def asInt64? : Value → Option Int64
  | int32 n => some n.toInt64
  | int64 n => some n
  | string text => Text.readInt64? text.toList
  | _ => none

def asBool? : Value → Option Bool
  | bool b => some b
  | _ => none

/-- The display text of a value. -/
def text : Value → String
  | null => "NULL"
  | bool b => if b then "true" else "false"
  | int32 n => String.ofList (Text.integer n.toInt)
  | int64 n => String.ofList (Text.integer n.toInt)
  | double x => String.ofList x.text
  | decimal digits => digits
  | string text => text
  | bytes content => "<" ++ String.ofList (Text.digits content.length) ++ " bytes>"
  | date d => String.ofList d.text
  | dateTime t => String.ofList (t.text ' ')
  | link rid => String.ofList rid.text
  | embedded r => "\x7b" ++ String.ofList (Text.digits r.size) ++ " fields\x7d"
  | array items => "[" ++ String.ofList (Text.digits items.length) ++ " items]"
  | json document => String.ofList document.text

mutual

/-- Whether two values are equal. -/
def equals : Value → Value → Bool
  | null, null => true
  | bool a, bool b => a == b
  | int32 a, int32 b => a == b
  | int64 a, int64 b => a == b
  | double a, double b => a.equals b
  | decimal a, decimal b => a == b
  | string a, string b => a == b
  | bytes a, bytes b => a == b
  | date a, date b => a == b
  | dateTime a, dateTime b => a == b
  | link a, link b => a == b
  | embedded a, embedded b => equalRecords a b
  | array as, array bs => equalItems as bs
  | json a, json b => a.equals b
  | _, _ => false

/-- Whether two records have the same identity, class and number of fields, and each field of
the first one equals the field of that name in the second one. -/
def equalRecords : RecordOf Value → RecordOf Value → Bool
  | ⟨rid, className, fields⟩, other =>
    rid == other.rid && className == other.className &&
      fields.length == other.fields.length && fieldsFound fields other.fields

def fieldsFound : List (String × Value) → List (String × Value) → Bool
  | [], _ => true
  | (name, value) :: rest, others =>
    (match others.lookup name with
      | some other => equals value other
      | none => false) && fieldsFound rest others

def equalItems : List Value → List Value → Bool
  | [], [] => true
  | a :: as, b :: bs => equals a b && equalItems as bs
  | _, _ => false

end

/-- Whether two fields that may be absent are equal; an absent one equals only an absent one. -/
def equalOptions : Option Value → Option Value → Bool
  | none, none => true
  | some a, some b => a.equals b
  | _, _ => false

end Value

/-- Whether two records are equal, without regard to the order of their fields. -/
def RecordOf.equals (a b : Record) : Bool :=
  Value.equalRecords a b

end DocumentClient
