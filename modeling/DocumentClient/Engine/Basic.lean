import DocumentClient.Catalog.Basic
import DocumentClient.Value
/-!
# Engines

An engine runs scripts and commands for the client. `Engine σ` is any engine whose state has
type `σ`: each call takes the state and gives an answer and the next state. Nothing else is
assumed of an engine, so what holds for all of them holds whatever an engine answers.

`Engine.traced` is the same engine with a log of the calls made to it.
-/

namespace DocumentClient

/-- What an engine returns for a script or a command. -/
inductive RawResult where
  /-- A bare count of 64 bits, as a rule of the records changed. -/
  | count (n : Int)
  | record (record : Record)
  | records (records : List Record)
  /-- A reference that stands for its record. -/
  | link (rid : RecordId)
  /-- A document of a shape that has no meaning here. -/
  | unrecognized (document : Json)
  | empty

instance : Inhabited RawResult := ⟨.empty⟩

/-- How many records a result says were changed. -/
def RawResult.affected : RawResult → Nat
  | .count n => n.toNat
  | _ => 0

/-- An engine with states of type `σ`. An engine that says nothing else has no user and closes
without fail. -/
structure Engine (σ : Type) where
  /-- Runs a script of a language. -/
  runScript : (language script : String) → σ → Except EngineError RawResult × σ
  /-- Runs a command outside any script. -/
  runCommand : (command : String) → σ → Except EngineError RawResult × σ
  /-- The record of an identity, if there is one. -/
  loadRecord : RecordId → σ → Except EngineError (Option Record) × σ
  readCatalog : σ → Except EngineError Catalog × σ
  close : σ → Except EngineError Unit × σ := fun state => (.ok (), state)
  databaseName : String
  url : String
  userName : Option String := none
  productVersion : String

/-- A call of an engine. -/
inductive Call where
  | script (language text : String)
  | command (text : String)
  | load (rid : RecordId)
  | catalog
  | close
deriving DecidableEq

/-- Adds a call to the log of a traced engine. -/
def Call.logged {σ α : Type} (call : Call) (answer : σ → α × σ) (state : σ × List Call) :
    α × (σ × List Call) :=
  let (reply, next) := answer state.1
  (reply, next, state.2 ++ [call])

/-- The engine that also keeps a log of the calls made to it, in order. -/
def Engine.traced {σ : Type} (e : Engine σ) : Engine (σ × List Call) where
  runScript language text := (Call.script language text).logged (e.runScript language text)
  runCommand text := (Call.command text).logged (e.runCommand text)
  loadRecord rid := (Call.load rid).logged (e.loadRecord rid)
  readCatalog := Call.catalog.logged e.readCatalog
  close := Call.close.logged e.close
  databaseName := e.databaseName
  url := e.url
  userName := e.userName
  productVersion := e.productVersion

/-- Runs a script, an error being one that the caller of the client sees. -/
def Engine.execute {σ : Type} (e : Engine σ) (language script : String) (state : σ) :
    Except Error RawResult × σ :=
  let (reply, state) := e.runScript language script state
  (reply.mapError EngineError.toError, state)

end DocumentClient
