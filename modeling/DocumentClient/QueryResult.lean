import DocumentClient.Value
/-!
# Query results

A result is a table made from records: its columns are the names of all their fields in the
order of first occurrence, and a record that lacks a column has null there. `tabulate` makes
it. A `StatementResult` says what became of one command.
-/

namespace DocumentClient

/-- What is known of a column. -/
structure Column where
  name : String
  dataType : String
  nullable : Bool
  ordinal : Nat
deriving DecidableEq

/-- A row: its values, and the names of the columns that they stand in. -/
structure Row where
  columns : List String
  values : List Value

namespace Row

/-- The value at a position. -/
def get? (row : Row) (index : Nat) : Option Value :=
  row.values[index]?

/-- The value in the first column of a name. -/
def find? (row : Row) (name : String) : Option Value :=
  (row.columns.idxOf? name).bind row.get?

end Row

/-- A table and the records that it was made from. -/
structure QueryResult where
  columns : List Column
  rows : List Row
  records : List Record
  affected : Nat
  milliseconds : Nat

namespace QueryResult

/-- The result without columns and rows. -/
def empty : QueryResult :=
  ⟨[], [], [], 0, 0⟩

instance : Inhabited QueryResult := ⟨empty⟩

/-- The names of all fields of some records, in order of first occurrence. -/
def columnNames (records : List Record) : List String :=
  (records.flatMap RecordOf.fieldNames).eraseDups

/-- A column of the table of some records. -/
def anyColumn (ordinal : Nat) (name : String) : Column :=
  { name, dataType := "any", nullable := true, ordinal }

/-- The row of a record under these columns. -/
def rowOf (columns : List String) (r : Record) : Row :=
  ⟨columns, columns.map fun name => Value.ofOption (r.get? name)⟩

/-- The table of some records. -/
def tabulate (records : List Record) : QueryResult :=
  let names := columnNames records
  { columns := names.mapIdx anyColumn
    rows := records.map (rowOf names)
    records
    affected := 0
    milliseconds := 0 }

/-- The same table with another number of affected records. -/
def withAffected (r : QueryResult) (affected : Nat) : QueryResult :=
  { r with affected }

/-- The same table with another execution time. -/
def withMilliseconds (r : QueryResult) (milliseconds : Nat) : QueryResult :=
  { r with milliseconds }

def hasRows (r : QueryResult) : Bool :=
  !r.rows.isEmpty

/-- The values of one column in all rows, null where there is no such column. -/
def columnValues (r : QueryResult) (name : String) : List Value :=
  r.rows.map fun row => Value.ofOption (row.find? name)

end QueryResult

/-- What became of one command. -/
inductive StatementResult where
  /-- It was appended to the open transaction. -/
  | queued
  /-- It was blank. -/
  | ignored
  /-- It ran. -/
  | executed (result : QueryResult)

namespace StatementResult

/-- Whether the command produced rows. -/
def isQuery : StatementResult → Bool
  | executed result => result.hasRows
  | _ => false

def isQueued : StatementResult → Bool
  | queued => true
  | _ => false

/-- How many records the command changed, as far as is known. -/
def affected : StatementResult → Nat
  | executed result => result.affected
  | _ => 0

def result? : StatementResult → Option QueryResult
  | executed result => some result
  | _ => none

end StatementResult

end DocumentClient
