import DocumentClient.Catalog.Basic
import DocumentClient.Metadata.Like
import DocumentClient.Value
/-!
# Metadata listings

What SQL tools ask a database about itself, answered from its catalog. Classes are tables,
properties are columns, unique indexes are primary keys and stored functions are procedures.
Every listing is a list of records whose field names are the column names that the tools
expect. `Listing.records` gives the rows of each listing.
-/

namespace DocumentClient

/-- A listing and its arguments. -/
inductive Listing where
  | tableTypes
  | catalogs
  | schemas
  /-- Classes of a name and of these table types; all of them where an argument is missing. -/
  | tables (name : Option String) (types : Option (List String))
  | columns (table column : Option String)
  | primaryKeys (table : String)
  | indexInfo (table : String) (uniqueOnly : Bool)
  | procedures (name : Option String)
  | procedureColumns (name : Option String)
  | superTables (table : String)
  | typeInfo
  | userTypes
deriving DecidableEq

namespace Listing

/-- Whether the rows come from the catalog of the engine. -/
def readsCatalog : Listing → Bool
  | tableTypes | catalogs | schemas | typeInfo => false
  | _ => true

/-! ## Tables -/

/-- The names of the classes that an engine makes for itself, in small letters. -/
def systemClasses : List String :=
  ["ouser", "orole", "oidentity", "ofunction", "osequence", "oschedule", "otriggered",
    "orestricted", "oshape", "v", "e", "_studio"]

/-- Whether a class is one that an engine makes for itself, ignoring case. Beyond ASCII only the
Kelvin sign has an ASCII small letter, a `k`, and no such class has one in its name; so ASCII
case decides. -/
def isSystemClass (name : String) : Bool :=
  systemClasses.any fun other => Text.eqIgnoringAsciiCase other name

def tableType (className : String) : String :=
  if isSystemClass className then "SYSTEM TABLE" else "TABLE"

/-- The table types, in reporting order. -/
def tableTypeNames : List String :=
  ["TABLE", "SYSTEM TABLE"]

/-- Whether a class has the wanted name, ignoring ASCII case; `%` alone is any name. -/
def hasName (wanted : Option String) (name : String) : Bool :=
  match wanted with
  | none => true
  | some pattern => pattern == "%" || Text.eqIgnoringAsciiCase pattern name

/-- Whether a class has one of the wanted table types, ignoring ASCII case. -/
def hasType (wanted : Option (List String)) (name : String) : Bool :=
  match wanted with
  | none => true
  | some types => types.any fun type => Text.eqIgnoringAsciiCase type (tableType name)

/-- The row of a class. -/
def tableRow (database : String) (c : ClassDef) : Record :=
  .ofFields [
    ("TABLE_CAT", .string database),
    ("TABLE_SCHEM", .string database),
    ("TABLE_NAME", .string c.name),
    ("TABLE_TYPE", .string (tableType c.name)),
    ("REMARKS", .null),
    ("TYPE_NAME", .null),
    ("REF_GENERATION", .null)]

/-- The row of a class as a user type. -/
def userTypeRow (c : ClassDef) : Record :=
  .ofFields [
    ("TYPE_CAT", .null),
    ("TYPE_SCHEM", .null),
    ("TYPE_NAME", .string c.name),
    ("CLASS_NAME", .string c.name),
    ("DATA_TYPE", .int32 SqlType.struct.code),
    ("REMARKS", .null)]

/-- The row of a class that has a super class. -/
def superTableRow? (database : String) (c : ClassDef) : Option Record :=
  c.superClass.map fun parent =>
    .ofFields [
      ("TABLE_CAT", .string database),
      ("TABLE_SCHEM", .string database),
      ("TABLE_NAME", .string c.name),
      ("SUPERTABLE_NAME", .string parent)]

/-! ## Columns -/

/-- The row of a property of a class. -/
def columnRow (database : String) (c : ClassDef) (p : Property) : Record :=
  .ofFields [
    ("TABLE_CAT", .string database),
    ("TABLE_SCHEM", .string database),
    ("TABLE_NAME", .string c.name),
    ("COLUMN_NAME", .string p.name),
    ("DATA_TYPE", .int32 p.type.sqlType.code),
    ("TYPE_NAME", .string p.type.name),
    ("COLUMN_SIZE", .int32 1),
    ("NUM_PREC_RADIX", .int32 10),
    ("NULLABLE", .int32 (if p.notNull then 0 else 1)),
    ("REMARKS", .ofText? p.description),
    ("COLUMN_DEF", .ofText? p.defaultValue),
    ("ORDINAL_POSITION", .int32 p.id),
    ("IS_NULLABLE", .string (if p.notNull then "NO" else "YES"))]

/-- The rows of the properties whose class and own name match. -/
def columnRows [ExpressionCompiler] (database : String) (catalog : Catalog)
    (table column : Option String) : List Record :=
  let tables := Like.compile table
  let columns := Like.compile column
  (catalog.classes.filter fun c => tables.isMatch c.name).flatMap fun c =>
    (c.properties.filter fun p => columns.isMatch p.name).map (columnRow database c)

/-! ## Indexes -/

/-- The row of one field of a unique index. The table is named as it was asked for. -/
def primaryKeyRow (database table : String) (i : Index) (position : Nat) (field : String) :
    Record :=
  .ofFields [
    ("TABLE_CAT", .string database),
    ("TABLE_SCHEM", .string database),
    ("TABLE_NAME", .string table),
    ("COLUMN_NAME", .string field),
    ("KEY_SEQ", .int32 (Int32.ofNat (position + 1))),
    ("PK_NAME", .string i.name)]

/-- The rows of the fields of the unique indexes of a class, in catalog order. -/
def primaryKeyRows (database : String) (catalog : Catalog) (table : String) : List Record :=
  ((catalog.indexesOf table).filter (·.kind.isUnique)).flatMap fun i =>
    i.fields.mapIdx (primaryKeyRow database table i)

/-- The row of an index. The table is named as it was asked for. -/
def indexRow (database table : String) (i : Index) : Record :=
  .ofFields [
    ("TABLE_CAT", .string database),
    ("TABLE_SCHEM", .string database),
    ("TABLE_NAME", .string table),
    ("NON_UNIQUE", .bool (!i.kind.isUnique)),
    ("INDEX_QUALIFIER", .null),
    ("INDEX_NAME", .string i.name),
    ("TYPE", .string i.kind.name),
    ("ORDINAL_POSITION", .int32 0),
    ("COLUMN_NAME", .string (", ".intercalate i.fields)),
    ("ASC_OR_DESC", .string "ASC")]

/-- Puts an index at its place among indexes in ascending order of their names, before those of
the same name. -/
def insertIndex (i : Index) : List Index → List Index
  | [] => [i]
  | other :: rest =>
    if other.name < i.name then other :: insertIndex i rest else i :: other :: rest

/-- Indexes in ascending order of their names; those of one name keep their order. -/
def sortIndexes (indexes : List Index) : List Index :=
  indexes.foldr insertIndex []

/-- The rows of the indexes of a class, in ascending order of their names. -/
def indexRows (database : String) (catalog : Catalog) (table : String) (uniqueOnly : Bool) :
    List Record :=
  let indexes := (catalog.indexesOf table).filter fun i => !uniqueOnly || i.kind.isUnique
  (sortIndexes indexes).map (indexRow database table)

/-! ## Procedures -/

/-- The row of a stored function. -/
def procedureRow (f : Function) : Record :=
  .ofFields [
    ("PROCEDURE_CAT", .null),
    ("PROCEDURE_SCHEM", .null),
    ("PROCEDURE_NAME", .string f.name),
    ("REMARKS", .string ""),
    ("PROCEDURE_TYPE", .int32 0),
    ("SPECIFIC_NAME", .string f.name)]

/-- The row of a parameter or of the result of a stored function. -/
def procedureColumnRow (database : String) (f : Function) (column : String) (kind : Int32) :
    Record :=
  .ofFields [
    ("PROCEDURE_CAT", .string database),
    ("PROCEDURE_SCHEM", .string database),
    ("PROCEDURE_NAME", .string f.name),
    ("COLUMN_NAME", .string column),
    ("COLUMN_TYPE", .int32 kind),
    ("DATA_TYPE", .int32 SqlType.other.code),
    ("SPECIFIC_NAME", .string f.name)]

/-- The rows of a stored function: its parameters, which are of kind 1, and its result, which is
of kind 5. -/
def procedureColumnRows (database : String) (f : Function) : List Record :=
  f.parameters.map (fun parameter => procedureColumnRow database f parameter 1) ++
    [procedureColumnRow database f "return" 5]

/-! ## Types -/

/-- The row of a type. Only for some types it is said whether they are unsigned. -/
def typeRow (name : String) (type : SqlType) (unsigned : Option Bool) : Record :=
  .ofFields ([
    ("TYPE_NAME", .string name),
    ("DATA_TYPE", .int32 type.code),
    ("NULLABLE", .int32 1),
    ("CASE_SENSITIVE", .bool true),
    ("SEARCHABLE", .bool true)] ++
    (unsigned.map fun unsigned => ("UNSIGNED_ATTRIBUTE", Value.bool unsigned)).toList)

/-- The rows of the types. A date with a time is reported as a date here. -/
def typeRows : List Record := [
  typeRow "BINARY" .binary none,
  typeRow "BOOLEAN" .boolean none,
  typeRow "BYTE" .tinyInt (some true),
  typeRow "DATE" .date none,
  typeRow "DATETIME" .date none,
  typeRow "DECIMAL" .decimal (some false),
  typeRow "FLOAT" .float (some false),
  typeRow "DOUBLE" .double (some false),
  typeRow "EMBEDDED" .struct none,
  typeRow "EMBEDDEDLIST" .array none,
  typeRow "INTEGER" .integer (some false),
  typeRow "LINKLIST" .array none,
  typeRow "LONG" .bigInt (some false),
  typeRow "STRING" .varChar none,
  typeRow "SHORT" .smallInt (some false)]

/-! ## All listings -/

/-- The rows of a listing for a database of this name with this catalog. -/
def records [ExpressionCompiler] (database : String) (catalog : Catalog) : Listing → List Record
  | tableTypes => tableTypeNames.map fun type => .ofFields [("TABLE_TYPE", .string type)]
  | catalogs => [.ofFields [("TABLE_CAT", .string database)]]
  | schemas =>
    [.ofFields [("TABLE_SCHEM", .string database), ("TABLE_CATALOG", .string database)]]
  | tables name types =>
    ((catalog.classes.filter fun c => hasName name c.name).filter fun c =>
      hasType types c.name).map (tableRow database)
  | columns table column => columnRows database catalog table column
  | primaryKeys table => primaryKeyRows database catalog table
  | indexInfo table uniqueOnly => indexRows database catalog table uniqueOnly
  | procedures name =>
    let names := Like.compile name
    (catalog.functions.filter fun f => names.isMatch f.name).map procedureRow
  | procedureColumns name =>
    let names := Like.compile name
    (catalog.functions.filter fun f => names.isMatch f.name).flatMap
      (procedureColumnRows database)
  | superTables table => ((catalog.find? table).bind (superTableRow? database)).toList
  | typeInfo => typeRows
  | userTypes => catalog.classes.map userTypeRow

end Listing

end DocumentClient
