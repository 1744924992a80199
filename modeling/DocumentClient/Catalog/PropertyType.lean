import DocumentClient.Text.Blank
import DocumentClient.Text.Casing
/-!
# Property types

The types a property of a class can be declared with, their names, and the SQL type code that
each is reported under.
-/

namespace DocumentClient

/-- The SQL type codes in use. -/
inductive SqlType where
  | binary
  | boolean
  | tinyInt
  | smallInt
  | integer
  | bigInt
  | float
  | double
  | decimal
  | varChar
  | date
  | timestamp
  | other
  | object
  | struct
  | array
deriving DecidableEq

/-- The number of a type code. -/
def SqlType.code : SqlType → Int32
  | binary => -2
  | boolean => 16
  | tinyInt => -6
  | smallInt => 5
  | integer => 4
  | bigInt => -5
  | float => 6
  | double => 8
  | decimal => 3
  | varChar => 12
  | date => 91
  | timestamp => 93
  | other => 1111
  | object => 2000
  | struct => 2002
  | array => 2003

/-- The type of a declared property. -/
inductive PropertyType where
  | binary
  | boolean
  | byte
  | short
  | integer
  | long
  | float
  | double
  | decimal
  | string
  | date
  | dateTime
  | embedded
  | embeddedList
  | embeddedSet
  | embeddedMap
  | link
  | linkList
  | linkSet
  | linkMap
  | any
deriving DecidableEq

namespace PropertyType

def name : PropertyType → String
  | binary => "BINARY"
  | boolean => "BOOLEAN"
  | byte => "BYTE"
  | short => "SHORT"
  | integer => "INTEGER"
  | long => "LONG"
  | float => "FLOAT"
  | double => "DOUBLE"
  | decimal => "DECIMAL"
  | string => "STRING"
  | date => "DATE"
  | dateTime => "DATETIME"
  | embedded => "EMBEDDED"
  | embeddedList => "EMBEDDEDLIST"
  | embeddedSet => "EMBEDDEDSET"
  | embeddedMap => "EMBEDDEDMAP"
  | link => "LINK"
  | linkList => "LINKLIST"
  | linkSet => "LINKSET"
  | linkMap => "LINKMAP"
  | any => "ANY"

/-- Every property type. -/
def all : List PropertyType :=
  [binary, boolean, byte, short, integer, long, float, double, decimal, string, date, dateTime,
    embedded, embeddedList, embeddedSet, embeddedMap, link, linkList, linkSet, linkMap, any]

/-- The type with exactly this name. -/
def ofName? (name : String) : Option PropertyType :=
  all.find? fun type => type.name == name

/-- Reads a type name, ignoring ASCII case and the blanks around it. -/
def read? (text : String) : Option PropertyType :=
  ofName? (String.ofList ((Text.trim text.toList).map Text.upperAscii))

/-- The SQL type that a property type is reported as. -/
def sqlType : PropertyType → SqlType
  | binary => .binary
  | boolean => .boolean
  | byte => .tinyInt
  | short => .smallInt
  | integer => .integer
  | long => .bigInt
  | float => .float
  | double => .double
  | decimal => .decimal
  | string => .varChar
  | date => .date
  | dateTime => .timestamp
  | embedded => .struct
  | embeddedList | embeddedSet | linkList | linkSet => .array
  | embeddedMap | link | linkMap | any => .object

end PropertyType

end DocumentClient
