import DocumentClient.Config.Params
import DocumentClient.Json.Printer
import DocumentClient.Settings
import DocumentClient.Text.Blank
import DocumentClient.Text.Casing
/-!
# Connection configurations

Where to connect, as whom, and further parameters by name. `withOverrides` lets the parameters
of one connection override the settings of all.
-/

namespace DocumentClient

/-- A connection configuration. The host is empty and the port zero for an engine in the same
process. -/
structure Config where
  driver : String
  name : String
  host : String := ""
  port : UInt16 := 0
  database : Option String := none
  username : Option String := none
  password : Option String := none
  params : Params := .empty
deriving DecidableEq

namespace Config

/-- Sets a parameter. -/
def withParam (config : Config) (name value : String) : Config :=
  { config with params := config.params.set name value }

/-- Sets a parameter to a document: to the text of a string, to the JSON text of all else. -/
def withJsonParam (config : Config) (name : String) : Json → Config
  | .string text => config.withParam name text
  | document => config.withParam name (String.ofList document.text)

def withCredentials (config : Config) (username password : String) : Config :=
  { config with username := some username, password := some password }

/-- The value of a parameter. -/
def param? (config : Config) (name : String) : Option String :=
  config.params.get? name

/-- A parameter or, under the names that they have, one of the other entries. -/
def text? (config : Config) (name : String) : Option String :=
  match config.param? name with
  | some value => some value
  | none =>
    if name = "host" then some config.host
    else if name = "database" then config.database
    else if name = "username" ∨ name = "user" then config.username
    else if name = "password" then config.password
    else none

/-- Reads a truth value, ignoring ASCII case and the blanks around it. -/
def readBool? (text : String) : Option Bool :=
  let word := String.ofList ((Text.trim text.toList).map Text.lowerAscii)
  if word ∈ ["true", "1", "yes", "on"] then some true
  else if word ∈ ["false", "0", "no", "off"] then some false
  else none

/-- The truth value of a parameter. -/
def bool? (config : Config) (name : String) : Option Bool :=
  (config.param? name).bind readBool?

end Config

/-- The parameter that overrides the mode in which a connection starts. -/
def autoCommitParam : String := "autoCommit"

/-- The parameter that overrides the language of scripts. -/
def scriptLanguageParam : String := "scriptLanguage"

/-- The settings of one connection. -/
def Settings.withOverrides (settings : Settings) (config : Config) : Settings :=
  { transaction :=
      { settings.transaction with
        language := (config.param? scriptLanguageParam).getD settings.transaction.language }
    connection :=
      { autoCommit := (config.bool? autoCommitParam).getD settings.connection.autoCommit } }

end DocumentClient
