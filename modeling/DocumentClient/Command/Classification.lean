import DocumentClient.Error
import DocumentClient.Text.Keyword
/-!
# Commands that may join a transaction

A command that creates, drops or alters a class, property, index or database changes the schema
and cannot be undone by leaving a transaction, so it is kept out of scripts. The decision looks
at the text alone: at its first two words.
-/

namespace DocumentClient.Command

/-- Whether a command may be part of a transaction. -/
inductive Classification where
  | accept
  | reject
deriving DecidableEq

/-- The first words of a command that changes the schema, in small letters. -/
def schemaVerbs : List String :=
  ["create", "drop", "alter"]

/-- The second words of a command that changes the schema, in small letters. -/
def schemaNouns : List String :=
  ["class", "property", "index", "database"]

/-- Whether a text is at its end or goes on with a blank. -/
def endsWord : List Char → Bool
  | [] => true
  | c :: _ => Text.isBlank c

/-- Whether a text starts with one of these nouns as a whole word. -/
def startsWithNoun (nouns : List String) (text : List Char) : Bool :=
  nouns.any fun noun => (Text.dropKeyword? noun.toList text).any endsWord

/-- Whether a text without blanks at its ends starts with a schema verb and a schema noun. -/
def changesSchema (text : List Char) : Bool :=
  schemaVerbs.any fun verb => (Text.dropWord? verb text).any (startsWithNoun schemaNouns)

/-- Classifies a command by its text. -/
def classify (command : String) : Classification :=
  if changesSchema (Text.trim command.toList) then .reject else .accept

/-- Fails for a command that cannot be part of a transaction. -/
def ensureTransactional (command : String) : Except Error Unit :=
  match classify command with
  | .accept => .ok ()
  | .reject => .error (.rejectedCommand (Text.trimmed command))

end DocumentClient.Command
