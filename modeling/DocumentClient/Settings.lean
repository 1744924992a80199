/-!
# Settings

How transactions are framed, in which language scripts are, and in which mode connections
start. Whatever is not set takes its default.
-/

namespace DocumentClient

/-- How a batch of commands becomes one script. -/
structure TransactionSettings where
  language : String := "sql"
  beginMarker : String := "BEGIN"
  commitMarker : String := "COMMIT"
deriving DecidableEq

structure ConnectionSettings where
  autoCommit : Bool := true
deriving DecidableEq

structure Settings where
  transaction : TransactionSettings := {}
  connection : ConnectionSettings := {}
deriving DecidableEq

end DocumentClient
