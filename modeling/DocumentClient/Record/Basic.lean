import DocumentClient.Record.Identity
/-!
# Records

A record has an optional identity, an optional class and named fields. Fields stand in the
order in which their names were first set, and setting a field again keeps its place. A record
is generic in what its fields hold, because a field value can itself be a record.
-/

namespace DocumentClient

/-- A record whose fields hold values of type `α`. -/
structure RecordOf (α : Type) where
  rid : Option RecordId
  className : Option String
  fields : List (String × α)

namespace RecordOf

variable {α : Type}

/-- The record without identity, class and fields. -/
def empty : RecordOf α :=
  ⟨none, none, []⟩

instance : Inhabited (RecordOf α) := ⟨empty⟩

/-- The record of a class that has no identity and no fields. -/
def ofClass (className : String) : RecordOf α :=
  ⟨none, some className, []⟩

/-- Fields with one of them set: at its old place if the name is there, else at the end. -/
def setField (name : String) (value : α) : List (String × α) → List (String × α)
  | [] => [(name, value)]
  | (other, old) :: rest =>
    if other = name then (other, value) :: rest
    else (other, old) :: setField name value rest

/-- Sets a field. -/
def set (r : RecordOf α) (name : String) (value : α) : RecordOf α :=
  { r with fields := setField name value r.fields }

/-- Sets fields one after another. -/
def setAll (r : RecordOf α) (values : List (String × α)) : RecordOf α :=
  values.foldl (fun r entry => r.set entry.1 entry.2) r

/-- Assignments keep the identity of a record. -/
@[simp] theorem setAll_rid (r : RecordOf α) (values : List (String × α)) :
    (r.setAll values).rid = r.rid := by
  induction values generalizing r with
  | nil => rfl
  | cons entry values ih => exact ih (r.set entry.1 entry.2)

/-- Assignments keep the class of a record. -/
@[simp] theorem setAll_className (r : RecordOf α) (values : List (String × α)) :
    (r.setAll values).className = r.className := by
  induction values generalizing r with
  | nil => rfl
  | cons entry values ih => exact ih (r.set entry.1 entry.2)

/-- The record without identity and class that has these fields. -/
def ofFields (values : List (String × α)) : RecordOf α :=
  empty.setAll values

/-- The same record under another identity. -/
def withRid (r : RecordOf α) (rid : RecordId) : RecordOf α :=
  { r with rid := some rid }

/-- The value of a field. -/
def get? (r : RecordOf α) (name : String) : Option α :=
  r.fields.lookup name

def contains (r : RecordOf α) (name : String) : Bool :=
  (r.get? name).isSome

/-- The names of the fields, in order. -/
def fieldNames (r : RecordOf α) : List String :=
  r.fields.map (·.1)

/-- How many fields there are. -/
def size (r : RecordOf α) : Nat :=
  r.fields.length

def isEmpty (r : RecordOf α) : Bool :=
  r.fields.isEmpty

end RecordOf

end DocumentClient
