import DocumentClient.Catalog.PropertyType
/-!
# Catalogs

The classes, indexes and stored functions of a database. A class is looked up by its name
without regard to ASCII case, and the first one counts.
-/

namespace DocumentClient

/-- A declared property of a class. -/
structure Property where
  name : String
  type : PropertyType
  notNull : Bool
  description : Option String
  defaultValue : Option String
  /-- The number that the engine gave it, which is reported as the ordinal of the column. -/
  id : Int32
deriving DecidableEq

/-- A property that nothing more is said of. -/
def Property.plain (name : String) (type : PropertyType) (id : Int32) : Property :=
  { name, type, notNull := false, description := none, defaultValue := none, id }

/-- A class, which clients see as a table. -/
structure ClassDef where
  name : String
  superClass : Option String
  properties : List Property
deriving DecidableEq

/-- The kind of an index. -/
inductive IndexKind where
  | unique
  | notUnique
  | fullText
  | dictionary
deriving DecidableEq

namespace IndexKind

def name : IndexKind → String
  | unique => "UNIQUE"
  | notUnique => "NOTUNIQUE"
  | fullText => "FULLTEXT"
  | dictionary => "DICTIONARY"

def all : List IndexKind :=
  [unique, notUnique, fullText, dictionary]

/-- The kind with exactly this name. -/
def ofName? (name : String) : Option IndexKind :=
  all.find? fun kind => kind.name == name

def isUnique (kind : IndexKind) : Bool :=
  kind == unique

end IndexKind

/-- An index over fields of a class. -/
structure Index where
  name : String
  className : String
  kind : IndexKind
  fields : List String
deriving DecidableEq

/-- A stored function, which clients see as a procedure. -/
structure Function where
  name : String
  parameters : List String
  language : Option String
deriving DecidableEq

/-- The schema of a database. -/
structure Catalog where
  classes : List ClassDef
  indexes : List Index
  functions : List Function
deriving DecidableEq

namespace Catalog

def empty : Catalog :=
  ⟨[], [], []⟩

instance : Inhabited Catalog := ⟨empty⟩

/-- The class of a name, ignoring ASCII case. -/
def find? (catalog : Catalog) (name : String) : Option ClassDef :=
  catalog.classes.find? fun c => Text.eqIgnoringAsciiCase c.name name

/-- The indexes of a class, ignoring ASCII case. -/
def indexesOf (catalog : Catalog) (className : String) : List Index :=
  catalog.indexes.filter fun i => Text.eqIgnoringAsciiCase i.className className

end Catalog

end DocumentClient
