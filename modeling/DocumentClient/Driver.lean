import DocumentClient.Connection
/-!
# Drivers

A driver is known by its profile and opens connections through a connector, which finds the
engine for a configuration. What a profile does not say takes the values of a driver that can
do nothing special.
-/

namespace DocumentClient

/-- What a driver can do. -/
structure Capabilities where
  transactions : Bool := false
  savepoints : Bool := false
  batchUpdates : Bool := false
  namedParameters : Bool := false
  storedProcedures : Bool := false
  schemas : Bool := false
  multipleDatabases : Bool := false
  cancellation : Bool := false
  json : Bool := false
deriving DecidableEq

/-- How a driver presents itself, and how it reads and writes connection URLs. -/
structure DriverProfile where
  name : String
  id : String := name
  displayName : String := name
  version : String := "0.1.0"
  defaultPort : Option UInt16 := none
  /-- A description of the form of connection URLs. -/
  help : String := ""
  capabilities : Capabilities := {}
  defaultParams : List (String × String) := []
  /-- Whether its connections have metadata. -/
  hasMetadata : Bool := false
  readUrl : String → Except Error Config := fun _ =>
    .error (.notSupported "Connection string parsing not implemented for this driver")

/-- The word for a truth value. -/
def boolWord (b : Bool) : String :=
  if b then "true" else "false"

/-- The driver for document engines, with these base settings. -/
def DriverProfile.document (settings : Settings) : DriverProfile where
  name := Url.driverName
  displayName := "DocQL"
  version := clientVersion
  defaultPort := some Url.defaultPort
  help := "DocQL URL format: docql:<mode>:<location>[?key=value&...]\n" ++
    "Examples:\n" ++
    "- docql:memory:demo\n" ++
    "- docql:plocal:/var/db/demo\n" ++
    "- docql:remote:localhost:2424/demo?user=admin&password=admin&autoCommit=false"
  capabilities :=
    { transactions := true, namedParameters := true, storedProcedures := true, json := true }
  defaultParams := [
    (autoCommitParam, boolWord settings.connection.autoCommit),
    (scriptLanguageParam, settings.transaction.language)]
  hasMetadata := true
  readUrl := Url.read

/-- Finds the engine for a configuration. -/
structure Connector (σ : Type) where
  connect : Config → σ → Except Error (Engine σ) × σ

namespace Connector

variable {σ : Type}

/-- Opens a connection with these base settings. -/
def openConnection (connector : Connector σ) (settings : Settings) (config : Config)
    (state : σ) : Except Error (Engine σ × Connection) × σ :=
  let (found, state) := connector.connect config state
  (found.map fun e => (e, Connection.start (settings.withOverrides config) config), state)

/-- Opens a connection and closes it again. -/
def test (connector : Connector σ) (settings : Settings) (config : Config) (state : σ) :
    Except Error Unit × σ :=
  match connector.openConnection settings config state with
  | (.ok (e, c), state) =>
    let (answer, _, state) := c.close e state
    (answer, state)
  | (.error error, state) => (.error error, state)

end Connector

end DocumentClient
