import DocumentClient.Settings
/-!
# Scripts

A script is a batch of commands, one to a line, between a begin marker and a commit marker.
Line breaks inside a command become spaces, so that each command takes exactly one line.
-/

namespace DocumentClient

/-- The text with a space for every carriage return that a line feed follows, the line feed
included. -/
def Command.replacePairs : List Char → List Char
  | [] => []
  | '\r' :: '\n' :: rest => ' ' :: replacePairs rest
  | c :: rest => c :: replacePairs rest

/-- The text with a space for every line break, be it a carriage return, a line feed, or the
one followed by the other. -/
def Command.onOneLine (text : List Char) : List Char :=
  (replacePairs text).map fun c => if c = '\n' ∨ c = '\r' then ' ' else c

/-- The text of a command on one line. -/
def Command.normalized (command : String) : String :=
  String.ofList (onOneLine command.toList)

/-- The markers around the commands of a script. -/
structure ScriptFrame where
  beginMarker : String := "BEGIN"
  commitMarker : String := "COMMIT"

namespace ScriptFrame

/-- The markers that the settings ask for. -/
def ofSettings (settings : TransactionSettings) : ScriptFrame :=
  ⟨settings.beginMarker, settings.commitMarker⟩

/-- A line and the line feed that ends it. -/
def line (text : List Char) : List Char :=
  text ++ ['\n']

/-- The characters of the script of some commands. -/
def build (frame : ScriptFrame) (commands : List String) : List Char :=
  line frame.beginMarker.toList ++
    commands.flatMap (fun command => line (Command.onOneLine command.toList)) ++
    line frame.commitMarker.toList

/-- The script of some commands. -/
def script (frame : ScriptFrame) (commands : List String) : String :=
  String.ofList (frame.build commands)

end ScriptFrame

end DocumentClient
