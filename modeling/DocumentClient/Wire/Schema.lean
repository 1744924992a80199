import DocumentClient.Catalog.Basic
import DocumentClient.QueryResult
import DocumentClient.Settings
import DocumentClient.Wire.Form
/-!
# Catalogs, columns and settings as JSON

Each structure is written with its members in a fixed order. Settings are the one structure
whose members may be missing; they take their defaults.
-/

namespace DocumentClient.Wire

open Json (Draft)

/-! ## Columns -/

def writeColumn (c : Column) : Json :=
  .object [
    ("name", .string c.name),
    ("data_type", .string c.dataType),
    ("nullable", .bool c.nullable),
    ("ordinal", .ofInt c.ordinal)]

def readColumn? : (depth : Nat) → Draft → Option Column
  | 0, _ => none
  | _ + 1, draft => do
    match ← readMembers? ["name", "data_type", "nullable", "ordinal"] draft with
    | [name, dataType, nullable, ordinal] =>
      return {
        name := ← required? readText? name
        dataType := ← required? readText? dataType
        nullable := ← required? readBool? nullable
        ordinal := ← required? readNat? ordinal }
    | _ => none

instance : Form Column := ⟨readColumn?, writeColumn⟩

/-! ## Property types and index kinds -/

instance : Form PropertyType := ⟨readWord? PropertyType.ofName?, fun type => .string type.name⟩

/-- The word for an index kind, its parts joined by underscores. -/
def indexKindWord : IndexKind → String
  | .unique => "UNIQUE"
  | .notUnique => "NOT_UNIQUE"
  | .fullText => "FULL_TEXT"
  | .dictionary => "DICTIONARY"

/-- The index kind of a word. -/
def indexKindOfWord? (word : String) : Option IndexKind :=
  IndexKind.all.find? fun kind => indexKindWord kind == word

instance : Form IndexKind :=
  ⟨readWord? indexKindOfWord?, fun kind => .string (indexKindWord kind)⟩

/-! ## Catalogs -/

def writeProperty (p : Property) : Json :=
  .object [
    ("name", .string p.name),
    ("property_type", Form.write p.type),
    ("not_null", .bool p.notNull),
    ("description", optional .string p.description),
    ("default_value", optional .string p.defaultValue),
    ("id", .ofInt p.id.toInt)]

def readProperty? : (depth : Nat) → Draft → Option Property
  | 0, _ => none
  | depth + 1, draft => do
    match ← readMembers?
      ["name", "property_type", "not_null", "description", "default_value", "id"] draft with
    | [name, type, notNull, description, defaultValue, id] =>
      return {
        name := ← required? readText? name
        type := ← required? (Form.read? depth) type
        notNull := ← required? readBool? notNull
        description := ← nullable? readText? description
        defaultValue := ← nullable? readText? defaultValue
        id := ← required? readInt32? id }
    | _ => none

def writeClass (c : ClassDef) : Json :=
  .object [
    ("name", .string c.name),
    ("super_class", optional .string c.superClass),
    ("properties", list writeProperty c.properties)]

def readClass? : (depth : Nat) → Draft → Option ClassDef
  | 0, _ => none
  | depth + 1, draft => do
    match ← readMembers? ["name", "super_class", "properties"] draft with
    | [name, superClass, properties] =>
      return {
        name := ← required? readText? name
        superClass := ← nullable? readText? superClass
        properties := ← required? (readList? readProperty? depth) properties }
    | _ => none

def writeIndex (i : Index) : Json :=
  .object [
    ("name", .string i.name),
    ("class_name", .string i.className),
    ("kind", Form.write i.kind),
    ("fields", list .string i.fields)]

def readIndex? : (depth : Nat) → Draft → Option Index
  | 0, _ => none
  | depth + 1, draft => do
    match ← readMembers? ["name", "class_name", "kind", "fields"] draft with
    | [name, className, kind, fields] =>
      return {
        name := ← required? readText? name
        className := ← required? readText? className
        kind := ← required? (Form.read? depth) kind
        fields := ← required? (readList? (fun _ => readText?) depth) fields }
    | _ => none

def writeFunction (f : Function) : Json :=
  .object [
    ("name", .string f.name),
    ("parameters", list .string f.parameters),
    ("language", optional .string f.language)]

def readFunction? : (depth : Nat) → Draft → Option Function
  | 0, _ => none
  | depth + 1, draft => do
    match ← readMembers? ["name", "parameters", "language"] draft with
    | [name, parameters, language] =>
      return {
        name := ← required? readText? name
        parameters := ← required? (readList? (fun _ => readText?) depth) parameters
        language := ← nullable? readText? language }
    | _ => none

def writeCatalog (catalog : Catalog) : Json :=
  .object [
    ("classes", list writeClass catalog.classes),
    ("indexes", list writeIndex catalog.indexes),
    ("functions", list writeFunction catalog.functions)]

def readCatalog? : (depth : Nat) → Draft → Option Catalog
  | 0, _ => none
  | depth + 1, draft => do
    match ← readMembers? ["classes", "indexes", "functions"] draft with
    | [classes, indexes, functions] =>
      return {
        classes := ← required? (readList? readClass? depth) classes
        indexes := ← required? (readList? readIndex? depth) indexes
        functions := ← required? (readList? readFunction? depth) functions }
    | _ => none

instance : Form Catalog := ⟨readCatalog?, writeCatalog⟩

/-! ## Settings -/

def writeSettings (s : Settings) : Json :=
  .object [
    ("transaction", .object [
      ("script_language", .string s.transaction.language),
      ("begin_marker", .string s.transaction.beginMarker),
      ("commit_marker", .string s.transaction.commitMarker)]),
    ("connection", .object [("auto_commit", .bool s.connection.autoCommit)])]

def readTransaction? : (depth : Nat) → Draft → Option TransactionSettings
  | 0, _ => none
  | _ + 1, draft => do
    let defaults : TransactionSettings := {}
    match ← readMembersOrDefaults? ["script_language", "begin_marker", "commit_marker"] draft with
    | [language, beginMarker, commitMarker] =>
      return {
        language := ← orDefault? readText? defaults.language language
        beginMarker := ← orDefault? readText? defaults.beginMarker beginMarker
        commitMarker := ← orDefault? readText? defaults.commitMarker commitMarker }
    | _ => none

def readConnection? : (depth : Nat) → Draft → Option ConnectionSettings
  | 0, _ => none
  | _ + 1, draft => do
    let defaults : ConnectionSettings := {}
    match ← readMembersOrDefaults? ["auto_commit"] draft with
    | [autoCommit] =>
      return { autoCommit := ← orDefault? readBool? defaults.autoCommit autoCommit }
    | _ => none

def readSettings? : (depth : Nat) → Draft → Option Settings
  | 0, _ => none
  | depth + 1, draft => do
    match ← readMembersOrDefaults? ["transaction", "connection"] draft with
    | [transaction, connection] =>
      return {
        transaction := ← orDefault? (readTransaction? depth) {} transaction
        connection := ← orDefault? (readConnection? depth) {} connection }
    | _ => none

instance : Form Settings := ⟨readSettings?, writeSettings⟩

end DocumentClient.Wire
