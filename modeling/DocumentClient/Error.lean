/-!
# Errors

`Error` is what a caller of the client sees, `EngineError` what an engine reports. An engine's
parse error is a syntax error for the caller, and its other errors are execution errors.
-/

namespace DocumentClient

/-- Why a call of the client failed. -/
inductive Error where
  /-- A command that changes the schema was submitted to a transaction. -/
  | rejectedCommand (command : String)
  /-- The engine could not parse what was submitted. -/
  | malformed (message : String)
  /-- The engine failed while it ran what was submitted. -/
  | execution (message : String)
  /-- A batch session was used after its end. -/
  | misuse (message : String)
  | connection (message : String)
  | configuration (message : String)
  | notSupported (message : String)
  | notFound (message : String)
  /-- A file could not be read as text. -/
  | unreadable
  /-- A JSON text does not hold what was asked for. -/
  | serialization
  /-- A settings text does not hold settings. -/
  | settings
deriving DecidableEq

namespace Error

/-- The text of an error. -/
def message : Error → String
  | rejectedCommand command => "Command is not transaction-compatible: " ++ command
  | malformed text => "Syntax error: " ++ text
  | execution text => "Execution error: " ++ text
  | misuse text => "Protocol misuse: " ++ text
  | connection text => "Connection error: " ++ text
  | configuration text => "Configuration error: " ++ text
  | notSupported text => "Not supported: " ++ text
  | notFound text => "Not found: " ++ text
  | unreadable => "IO error"
  | serialization => "Serialization error"
  | settings => "Settings error"

def isMalformed : Error → Bool
  | malformed _ => true
  | _ => false

def isExecution : Error → Bool
  | execution _ => true
  | _ => false

/-- Whether a command was refused before it reached the engine. -/
def isRejected : Error → Bool
  | rejectedCommand _ => true
  | _ => false

def isMisuse : Error → Bool
  | misuse _ => true
  | _ => false

end Error

/-- Why a call of an engine failed. -/
inductive EngineError where
  | parse (message : String)
  | execution (message : String)
  | connection (message : String)
deriving DecidableEq

namespace EngineError

/-- The text of an engine's error. -/
def message : EngineError → String
  | parse text => "parse error: " ++ text
  | execution text => "execution error: " ++ text
  | connection text => "connection error: " ++ text

/-- The error that the caller of the client sees. -/
def toError : EngineError → Error
  | parse text => .malformed text
  | execution text => .execution text
  | connection text => .execution text

end EngineError

end DocumentClient
