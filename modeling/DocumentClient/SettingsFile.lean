import DocumentClient.Error
import DocumentClient.Settings
import DocumentClient.Toml.Reader
/-!
# Settings in TOML

Settings are written as a TOML document:

* `[transaction]` with `script_language`, `begin_marker` and `commit_marker`,
* `[connection]` with `auto_commit`.

A key that is missing takes its default and any other key is ignored. A section may also be an
array of its values in this order, from which the last ones may be missing.
-/

namespace DocumentClient

/-- The text of a string. -/
def Toml.text? : Toml → Option String
  | string text => some text
  | _ => none

/-- The truth value of a boolean. -/
def Toml.bool? : Toml → Option Bool
  | bool b => some b
  | _ => none

/-- The values of a section under these keys, each if it is there. A date or time has none of
them, as if it were a table of something else. -/
def Toml.section? (keys : List String) : Toml → Option (List (Option Toml))
  | table entries => some (keys.map fun key => entries.lookup key)
  | array items => some (keys.mapIdx fun place _ => items[place]?)
  | dateTime _ => some (keys.map fun _ => none)
  | _ => none

/-- A value that is there must be read; for one that is not, the default stands. -/
def Toml.valueOr {α : Type} (read : Toml → Option α) (default : α) : Option Toml → Option α
  | none => some default
  | some value => read value

/-- Reads the section on transactions. -/
def TransactionSettings.ofToml? (value : Toml) : Option TransactionSettings := do
  let defaults : TransactionSettings := {}
  match ← value.section? ["script_language", "begin_marker", "commit_marker"] with
  | [language, beginMarker, commitMarker] =>
    return {
      language := ← Toml.valueOr Toml.text? defaults.language language
      beginMarker := ← Toml.valueOr Toml.text? defaults.beginMarker beginMarker
      commitMarker := ← Toml.valueOr Toml.text? defaults.commitMarker commitMarker }
  | _ => none

/-- Reads the section on connections. -/
def ConnectionSettings.ofToml? (value : Toml) : Option ConnectionSettings := do
  let defaults : ConnectionSettings := {}
  match ← value.section? ["auto_commit"] with
  | [autoCommit] =>
    return { autoCommit := ← Toml.valueOr Toml.bool? defaults.autoCommit autoCommit }
  | _ => none

/-- Reads settings from the entries of a document. -/
def Settings.ofToml? (entries : List (String × Toml)) : Option Settings := do
  let transaction ← Toml.valueOr TransactionSettings.ofToml? {} (entries.lookup "transaction")
  let connection ← Toml.valueOr ConnectionSettings.ofToml? {} (entries.lookup "connection")
  return { transaction, connection }

/-- Reads settings from a text. -/
def Settings.read (text : String) : Except Error Settings :=
  match (Toml.read? text).bind Settings.ofToml? with
  | some settings => .ok settings
  | none => .error .settings

/-- Reads settings from the bytes of a file, if there is one. They must be UTF-8. -/
def Settings.load (content : Option ByteArray) : Except Error Settings :=
  match content.bind String.fromUTF8? with
  | some text => Settings.read text
  | none => .error .unreadable

end DocumentClient
