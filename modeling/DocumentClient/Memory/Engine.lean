import DocumentClient.Driver
import DocumentClient.Memory.Store
/-!
# The in-memory engine

A database is a store and a count of the scripts submitted to it. A script runs line by line.
Between the lines `BEGIN` and `COMMIT` statements change a working copy of the store, which
replaces the live store when `COMMIT` is reached; the first error ends the script, and a working
copy that is left over is dropped. `Memory.engine` is the engine of one database.

A server holds databases by name, and all connections to a name share one database.
-/

namespace DocumentClient.Memory

/-- A database in memory. -/
structure Database where
  store : Store
  /-- How many scripts were submitted. -/
  scripts : Nat

namespace Database

/-- A new database. -/
def empty : Database :=
  ⟨.empty, 0⟩

instance : Inhabited Database := ⟨empty⟩

end Database

/-! ## Scripts -/

/-- How far a script has come. -/
structure Progress where
  live : Store
  /-- The working copy between `BEGIN` and `COMMIT`. -/
  working : Option Store
  /-- How many records the statements so far wrote, always fewer than 64 bits can count. -/
  count : Nat

namespace Progress

/-- A script that has not begun. -/
def start (live : Store) : Progress :=
  ⟨live, none, 0⟩

/-- The store that statements apply to. -/
def current (p : Progress) : Store :=
  p.working.getD p.live

/-- The same place in the script with another store that statements apply to. -/
def withCurrent (p : Progress) (s : Store) : Progress :=
  match p.working with
  | some _ => { p with working := some s }
  | none => { p with live := s }

/-- Begins a transaction, dropping the working copy of one that is open. -/
def beginTransaction (p : Progress) : Progress :=
  { p with working := some p.live }

/-- Commits the open transaction, if there is one. -/
def commitTransaction (p : Progress) : Progress :=
  match p.working with
  | some s => { p with live := s, working := none }
  | none => p

/-- Applies a statement. -/
def applyStatement (p : Progress) (line : List Char) : Except EngineError Unit × Progress :=
  match p.current.apply line with
  | (.ok (.written count), s) => (.ok (), { p.withCurrent s with count := p.count + count })
  | (.ok (.rows _), s) => (.ok (), p.withCurrent s)
  | (.error error, s) => (.error error, p.withCurrent s)

/-- Whether a line is this word, ignoring ASCII case. -/
def isMarker (word : String) (line : List Char) : Bool :=
  Text.eqIgnoringAsciiCase (String.ofList line) word

/-- Runs one line. -/
def runLine (p : Progress) (line : List Char) : Except EngineError Unit × Progress :=
  if isMarker "BEGIN" line then (.ok (), p.beginTransaction)
  else if isMarker "COMMIT" line then (.ok (), p.commitTransaction)
  else p.applyStatement line

/-- Runs lines until one of them fails. -/
def runLines (p : Progress) : List (List Char) → Except EngineError Unit × Progress
  | [] => (.ok (), p)
  | line :: lines =>
    match p.runLine line with
    | (.ok (), p) => p.runLines lines
    | (.error error, p) => (.error error, p)

end Progress

/-- The lines of a script, without the blanks at their ends and without blank lines. -/
def scriptLines (script : List Char) : List (List Char) :=
  ((Text.lines script).map Text.trim).filter fun line => !line.isEmpty

namespace Database

/-- Runs a script. Only the language `sql` is known. -/
def runScript (language script : String) (d : Database) : Except EngineError RawResult × Database :=
  let scripts := d.scripts + 1
  if !Text.eqIgnoringAsciiCase language "sql" then
    (.error (.execution ("Unsupported script language '" ++ language ++ "'")), { d with scripts })
  else
    let (answer, p) := (Progress.start d.store).runLines (scriptLines script.toList)
    (answer.map fun _ => .count p.count, ⟨p.live, scripts⟩)

/-- Runs a command outside any script. -/
def runCommand (command : String) (d : Database) : Except EngineError RawResult × Database :=
  match d.store.apply command.toList with
  | (.ok (.written count), store) => (.ok (.count count), { d with store })
  | (.ok (.rows records), store) => (.ok (.records records), { d with store })
  | (.error error, store) => (.error error, { d with store })

/-- Adds a stored function. -/
def defineFunction (d : Database) (f : Function) : Database :=
  { d with store := d.store.defineFunction f }

end Database

/-- The engine of a database of this name. -/
def engine (name : String) : Engine Database where
  runScript := Database.runScript
  runCommand := Database.runCommand
  loadRecord rid d := (.ok (d.store.load? rid), d)
  readCatalog d := (.ok d.store.catalog, d)
  databaseName := name
  url := "docql:memory:" ++ name
  userName := some "admin"
  productVersion := "memory"

/-! ## Servers -/

/-- The databases in memory, by name. A database that is not there is a new one. -/
abbrev Server := List (String × Database)

namespace Server

def database (server : Server) (name : String) : Database :=
  (server.lookup name).getD .empty

/-- Replaces the database of a name. -/
def put (name : String) (d : Database) : Server → Server
  | [] => [(name, d)]
  | (other, old) :: rest =>
    if other = name then (name, d) :: rest else (other, old) :: put name d rest

/-- Makes a call of the database of a name. -/
def call {α : Type} (name : String) (f : Database → α × Database) (server : Server) : α × Server :=
  let (answer, d) := f (server.database name)
  (answer, server.put name d)

/-- The engine of the database of a name on a server. -/
def engine (name : String) : Engine Server :=
  let e := Memory.engine name
  { runScript := fun language script => call name (e.runScript language script)
    runCommand := fun command => call name (e.runCommand command)
    loadRecord := fun rid => call name (e.loadRecord rid)
    readCatalog := call name e.readCatalog
    databaseName := e.databaseName
    url := e.url
    userName := e.userName
    productVersion := e.productVersion }

/-- Connects to the database of a configuration, or to one that has the configuration's name. -/
def connector : Connector Server where
  connect config server := (.ok (engine (config.database.getD config.name)), server)

end Server

end DocumentClient.Memory
