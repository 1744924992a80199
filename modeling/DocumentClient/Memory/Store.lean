import DocumentClient.Catalog.Basic
import DocumentClient.Memory.Assignment
import DocumentClient.Memory.Statement
/-!
# Stores

A store holds the classes, indexes and records of one database in memory. `Store.run` carries
out a statement and `Store.apply` the statement that a text holds; both give an outcome or an
error, and the store afterwards.

Records know their class by its exact name, and an index its class likewise, while statements
name a class without regard to ASCII case; `Store.className` gives the exact name.
-/

namespace DocumentClient.Memory

/-- The contents of a database. -/
structure Store where
  catalog : Catalog
  records : List Record
  /-- The position that the next record of a class gets; zero for a class without an entry. -/
  nextPositions : List (String × Nat)
  /-- The number that the next property gets. It wraps around. -/
  nextPropertyId : Int32

/-- What a statement did. -/
inductive Outcome where
  /-- It wrote this many records, or made something that is no record. -/
  | written (count : Nat)
  | rows (records : List Record)

namespace Store

/-- The store without classes. -/
def empty : Store :=
  ⟨.empty, [], [], 0⟩

instance : Inhabited Store := ⟨empty⟩

/-- The cluster of the first class. -/
def firstCluster : Nat := 10

/-! ## Looking up -/

def unknownClass (name : String) : EngineError :=
  .execution ("Class '" ++ name ++ "' was not found")

/-- The exact name of a class. -/
def className (s : Store) (name : String) : Except EngineError String :=
  match s.catalog.find? name with
  | some c => .ok c.name
  | none => .error (unknownClass name)

/-- The cluster of a class. -/
def clusterOf (s : Store) (className : String) : Int32 :=
  Int32.ofNat (firstCluster + (s.catalog.classes.findIdx? (·.name == className)).getD 0)

/-- The position that the next record of a class gets. -/
def nextPosition (s : Store) (className : String) : Nat :=
  (s.nextPositions.lookup className).getD 0

/-- Whether a record is of a class and satisfies the condition, if there is one. -/
def isTarget (className : String) (condition : Option Assignment) (r : Record) : Bool :=
  r.className == some className &&
    match condition with
    | none => true
    | some (name, value) => Value.equalOptions (r.get? name) (some value)

/-- The records of a class that satisfy the condition, in order. -/
def targets (s : Store) (className : String) (condition : Option Assignment) : List Record :=
  s.records.filter (isTarget className condition)

/-- The places of the records of a class that satisfy the condition, in order. -/
def targetPlaces (s : Store) (className : String) (condition : Option Assignment) : List Nat :=
  (s.records.zipIdx.filter fun entry => isTarget className condition entry.1).map (·.2)

/-! ## Unique indexes -/

/-- The key of a record in an index. -/
def indexKey (i : Index) (r : Record) : List (Option Value) :=
  i.fields.map r.get?

/-- Whether two keys are equal. -/
def equalKeys : List (Option Value) → List (Option Value) → Bool
  | [], [] => true
  | a :: as, b :: bs => Value.equalOptions a b && equalKeys as bs
  | _, _ => false

/-- Whether another record of the class than the one at place `skip` has the key of this one. -/
def isTaken (s : Store) (className : String) (i : Index) (r : Record) (skip : Option Nat) :
    Bool :=
  s.records.zipIdx.any fun (other, place) =>
    other.className == some className && some place != skip &&
      equalKeys (indexKey i other) (indexKey i r)

/-- The first unique index of the record's class in which its key is taken by another record
than the one at place `skip`. -/
def conflict? (s : Store) (r : Record) (skip : Option Nat) : Option (String × Index) :=
  match r.className with
  | none => none
  | some className =>
    ((s.catalog.indexesOf className).find? fun i =>
      i.kind.isUnique && s.isTaken className i r skip).map fun i => (className, i)

/-- Fails if a unique index forbids a record. -/
def checkUnique (s : Store) (r : Record) (skip : Option Nat) : Except EngineError Unit :=
  match s.conflict? r skip with
  | none => .ok ()
  | some (className, i) =>
    .error (.execution ("Cannot index record " ++ className ++
      ": found duplicated key in index '" ++ i.name ++ "'"))

/-! ## Changing the schema -/

def createClass (s : Store) (name : String) (parent : Option String) :
    Except EngineError Store := do
  let parent ← match parent with
    | none => pure none
    | some parent => some <$> s.className parent
  if (s.catalog.find? name).isSome then
    .error (.execution ("Class '" ++ name ++ "' already exists"))
  else
    let c : ClassDef := { name, superClass := parent, properties := [] }
    return { s with catalog := { s.catalog with classes := s.catalog.classes ++ [c] } }

/-- Classes with a property added to the first one of a name. -/
def addProperty (className : String) (p : Property) : List ClassDef → List ClassDef
  | [] => []
  | c :: rest =>
    if Text.eqIgnoringAsciiCase c.name className then
      { c with properties := c.properties ++ [p] } :: rest
    else c :: addProperty className p rest

def createProperty (s : Store) (className name type : String) : Except EngineError Store := do
  let some type := PropertyType.read? type
    | .error (.parse ("Unknown type '" ++ type ++ "'"))
  let _ ← s.className className
  let p := Property.plain name type s.nextPropertyId
  return { s with
    catalog := { s.catalog with classes := addProperty className p s.catalog.classes }
    nextPropertyId := s.nextPropertyId + 1 }

def createIndex (s : Store) (name className : String) (fields : List String) (unique : Bool) :
    Except EngineError Store := do
  let className ← s.className className
  let i : Index := { name, className, kind := if unique then .unique else .notUnique, fields }
  return { s with catalog := { s.catalog with indexes := s.catalog.indexes ++ [i] } }

/-- Adds a stored function. -/
def defineFunction (s : Store) (f : Function) : Store :=
  { s with catalog := { s.catalog with functions := s.catalog.functions ++ [f] } }

/-! ## Changing records -/

/-- Positions with the entry of one class set. -/
def setPosition (className : String) (position : Nat) :
    List (String × Nat) → List (String × Nat)
  | [] => [(className, position)]
  | (other, old) :: rest =>
    if other = className then (className, position) :: rest
    else (other, old) :: setPosition className position rest

/-- Stores a new record of a class, given by its exact name. -/
def insert (s : Store) (className : String) (assignments : List Assignment) :
    Except EngineError Store := do
  let r : Record := (RecordOf.ofClass className).setAll assignments
  s.checkUnique r none
  let position := s.nextPosition className
  let rid : RecordId := ⟨s.clusterOf className, Int64.ofNat position⟩
  return { s with
    records := s.records ++ [r.withRid rid]
    nextPositions := setPosition className (position + 1) s.nextPositions }

/-- Sets fields of the record at a place. -/
def updateAt (s : Store) (assignments : List Assignment) (place : Nat) :
    Except EngineError Store :=
  match s.records[place]? with
  | none => .ok s
  | some r => do
    let r := r.setAll assignments
    s.checkUnique r (some place)
    return { s with records := s.records.set place r }

/-- Sets fields of the records at some places, one record after another. The first one that a
unique index forbids ends the work; the records before it stay changed. -/
def updateEach (assignments : List Assignment) : List Nat → Store → Except EngineError Unit × Store
  | [], s => (.ok (), s)
  | place :: places, s =>
    match s.updateAt assignments place with
    | .ok s => updateEach assignments places s
    | .error error => (.error error, s)

/-- Sets fields of all records of a class that satisfy the condition. -/
def update (s : Store) (className : String) (assignments : List Assignment)
    (condition : Option Assignment) : Except EngineError Outcome × Store :=
  let places := s.targetPlaces className condition
  let (answer, s) := updateEach assignments places s
  (answer.map fun _ => .written places.length, s)

/-- Elements without those at some places, which are taken out from the last place to the first. -/
def eraseAll {α : Type} (places : List Nat) (elements : List α) : List α :=
  places.foldr (fun place rest => rest.eraseIdx place) elements

/-- Removes all records of a class that satisfy the condition. -/
def delete (s : Store) (className : String) (condition : Option Assignment) : Outcome × Store :=
  let places := s.targetPlaces className condition
  (.written places.length, { s with records := eraseAll places s.records })

/-! ## Statements -/

/-- The store after a change that is made completely or not at all. -/
def written (count : Nat) (s : Store) :
    Except EngineError Store → Except EngineError Outcome × Store
  | .ok changed => (.ok (.written count), changed)
  | .error error => (.error error, s)

/-- Reads the condition of a statement, if there is one. -/
def readCondition? : Option (List Char) → Except EngineError (Option Assignment)
  | none => .ok none
  | some text => some <$> readCondition text

/-- Carries out a statement. The class is looked up first, then the assignments are read, then
the condition. -/
def run (s : Store) : Statement → Except EngineError Outcome × Store
  | .createClass name parent => written 0 s (s.createClass name parent)
  | .createProperty className name type => written 0 s (s.createProperty className name type)
  | .createIndex name className fields unique =>
    written 0 s (s.createIndex name className fields unique)
  | .insert className assignments => written 1 s do
    let className ← s.className className
    let assignments ← readAssignments assignments
    s.insert className assignments
  | .update className assignments condition =>
    let arguments : Except EngineError (String × List Assignment × Option Assignment) := do
      let className ← s.className className
      let assignments ← readAssignments assignments
      let condition ← readCondition? condition
      return (className, assignments, condition)
    match arguments with
    | .ok (className, assignments, condition) => s.update className assignments condition
    | .error error => (.error error, s)
  | .delete className condition =>
    let arguments : Except EngineError (String × Option Assignment) := do
      let className ← s.className className
      let condition ← readCondition? condition
      return (className, condition)
    match arguments with
    | .ok (className, condition) =>
      let (outcome, s) := s.delete className condition
      (.ok outcome, s)
    | .error error => (.error error, s)
  | .select className condition =>
    let rows : Except EngineError (List Record) := do
      let className ← s.className className
      let condition ← readCondition? condition
      return s.targets className condition
    (rows.map .rows, s)

/-- The statement in a command: without blanks at its ends and semicolons at its end. -/
def statementText (command : List Char) : List Char :=
  Text.trim ((Text.trim command).reverse.dropWhile (· == ';')).reverse

/-- Carries out the statement in a command. -/
def apply (s : Store) (command : List Char) : Except EngineError Outcome × Store :=
  let text := statementText command
  match Statement.read? text with
  | some statement => s.run statement
  | none => (.error (.parse ("Unrecognized command: '" ++ String.ofList text ++ "'")), s)

/-- The records of a class, ignoring ASCII case. -/
def recordsOf (s : Store) (className : String) : List Record :=
  s.records.filter fun r => r.className.any fun c => Text.eqIgnoringAsciiCase c className

/-- The record of an identity. -/
def load? (s : Store) (rid : RecordId) : Option Record :=
  s.records.find? fun r => r.rid == some rid

end Store

end DocumentClient.Memory
