import DocumentClient.Config.Basic
import DocumentClient.Error
import DocumentClient.Text.Integer
import DocumentClient.Text.Splitting
/-!
# Connection URLs

A URL reads `docql:<mode>:<location>[?key=value&...]`. In the mode `remote` the location is
`host[:port]/database`, in any other mode it is the database itself. `parse` reads a URL into a
configuration or says what it lacks, `read` makes that an error of the client, and `build` writes
a URL.
-/

namespace DocumentClient.Url

/-- The name of the driver that the URLs are for. -/
def driverName : String := "docql"

/-- The port of a remote engine if none is given. -/
def defaultPort : UInt16 := 2424

/-- The parameter that holds the storage mode. -/
def modeParam : String := "mode"

/-- What a URL lacks. -/
inductive Fault where
  | noScheme
  | noMode
  | emptyMode
  | noLocation
  | noRemoteDatabase
  | badPort

def Fault.message : Fault → String
  | noScheme => "missing 'docql:' prefix"
  | noMode => "missing storage mode"
  | emptyMode => "empty storage mode"
  | noLocation => "missing database location"
  | noRemoteDatabase => "remote location needs host/database"
  | badPort => "invalid port"

/-- Whether a mode is the remote one, ignoring ASCII case. -/
def isRemote (mode : String) : Bool :=
  Text.eqIgnoringAsciiCase mode "remote"

/-- What follows `docql:` in a text. -/
def dropScheme? (text : List Char) : Option (List Char) :=
  if "docql:".toList.isPrefixOf text then some (text.drop 6) else none

/-- The host and the port of `host[:port]`. -/
def readAuthority (authority : List Char) : Except Fault (String × UInt16) :=
  match Text.cutAt ':' authority with
  | none => .ok (String.ofList authority, defaultPort)
  | some (host, port) =>
    match Text.readUInt16? port with
    | some port => .ok (String.ofList host, port)
    | none => .error .badPort

/-- The configuration of a location, without parameters. -/
def readLocation (mode : String) (location : List Char) : Except Fault Config := do
  let config : Config := { driver := driverName, name := String.ofList location }
  if isRemote mode then
    let some (authority, database) := Text.cutAt '/' location | .error .noRemoteDatabase
    let (host, port) ← readAuthority authority
    return { config with host, port, database := some (String.ofList database) }
  else
    return { config with database := some (String.ofList location) }

/-- Enters one `key=value` pair. What is not such a pair is skipped. -/
def applyPair (config : Config) (pair : List Char) : Config :=
  match Text.cutAt '=' pair with
  | none => config
  | some (key, value) =>
    let key := String.ofList key
    let value := String.ofList value
    if key = "user" ∨ key = "username" then { config with username := some value }
    else if key = "password" then { config with password := some value }
    else config.withParam key value

/-- Reads a URL. -/
def parse (url : String) : Except Fault Config := do
  let some rest := dropScheme? (Text.trim url.toList) | .error .noScheme
  let some (mode, rest) := Text.cutAt ':' rest | .error .noMode
  if mode.isEmpty then .error .emptyMode
  let (location, query) := match Text.cutAt '?' rest with
    | some (location, query) => (location, Text.splitAt '&' query)
    | none => (rest, [])
  if location.isEmpty then .error .noLocation
  let mode := String.ofList mode
  let config ← readLocation mode location
  return query.foldl applyPair (config.withParam modeParam mode)

/-- Reads a URL, a fault being an error of the configuration. -/
def read (url : String) : Except Error Config :=
  match parse url with
  | .ok config => .ok config
  | .error fault =>
    .error (.configuration ("Invalid DocQL URL '" ++ url ++ "': " ++ fault.message))

/-- The pairs after the question mark: the credentials, then the parameters other than the mode
in ascending order of their names. -/
def queryPairs (config : Config) : List (String × String) :=
  (config.username.map fun user => ("user", user)).toList ++
    (config.password.map fun password => ("password", password)).toList ++
    config.params.entries.filter (·.1 != modeParam)

/-- The storage mode of a configuration. -/
def modeOf (config : Config) : String :=
  match config.text? modeParam with
  | some mode => mode
  | none => if config.host.isEmpty then "memory" else "remote"

/-- The location of a configuration in this mode. -/
def locationOf (config : Config) (mode : String) : String :=
  let database := config.database.getD ""
  if isRemote mode then
    let port := if config.port = 0 then defaultPort else config.port
    config.host ++ ":" ++ String.ofList (Text.digits port.toNat) ++ "/" ++ database
  else database

/-- The URL of a configuration. -/
def build (config : Config) : String :=
  let mode := modeOf config
  let pairs := (queryPairs config).map fun pair => pair.1 ++ "=" ++ pair.2
  let query := if pairs.isEmpty then "" else "?" ++ "&".intercalate pairs
  "docql:" ++ mode ++ ":" ++ locationOf config mode ++ query

end DocumentClient.Url
