import DocumentClient.Driver
/-!
# Engines that replay

An engine that gives prepared replies, one after another, and nothing once they are used up.
It stands in for a real engine where the calls of a client are looked at.
-/

namespace DocumentClient

/-- What a scripted engine gives for a script or a command. -/
abbrev Reply := Except EngineError RawResult

/-- The replies that are still to come. -/
structure Replies where
  scripts : List Reply
  commands : List Reply

/-- What a scripted engine knows apart from its replies. -/
structure Scripted where
  /-- What loading a record gives; of equal identities the last one counts. -/
  records : List (RecordId × Except EngineError Record)
  catalog : Except EngineError Catalog
  close : Except EngineError Unit
  databaseName : String
  url : String
  userName : Option String
  productVersion : String

namespace Scripted

/-- What loading a record gives. -/
def load (s : Scripted) (rid : RecordId) : Except EngineError (Option Record) :=
  match s.records.reverse.lookup rid with
  | some found => found.map some
  | none => .ok none

/-- The engine that gives these answers. -/
def engine (s : Scripted) : Engine Replies where
  runScript _ _ replies :=
    (replies.scripts.headD (.ok .empty), { replies with scripts := replies.scripts.drop 1 })
  runCommand _ replies :=
    (replies.commands.headD (.ok .empty), { replies with commands := replies.commands.drop 1 })
  loadRecord rid replies := (s.load rid, replies)
  readCatalog replies := (s.catalog, replies)
  close replies := (s.close, replies)
  databaseName := s.databaseName
  url := s.url
  userName := s.userName
  productVersion := s.productVersion

end Scripted

/-- The connector that finds this engine for every configuration, or fails with a message. -/
def Connector.fixed {σ : Type} (e : Engine σ) (failure : Option String) : Connector σ where
  connect _ state :=
    match failure with
    | some message => (.error (.connection message), state)
    | none => (.ok e, state)

end DocumentClient
