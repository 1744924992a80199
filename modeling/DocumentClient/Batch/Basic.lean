import DocumentClient.Text.Blank
/-!
# Batches

A batch is the commands accepted for one transaction, in the order of submission. Blank texts
are not accepted.
-/

namespace DocumentClient

/-- The commands of one transaction. -/
structure Batch where
  commands : List String := []
deriving DecidableEq

namespace Batch

/-- Appends a command, and says whether it was accepted. -/
def push (batch : Batch) (command : String) : Bool × Batch :=
  if Text.isBlankText command then (false, batch)
  else (true, ⟨batch.commands ++ [command]⟩)

/-- How many commands there are. -/
def size (batch : Batch) : Nat :=
  batch.commands.length

def isEmpty (batch : Batch) : Bool :=
  batch.commands.isEmpty

/-- How many bytes of UTF-8 the commands take. -/
def textSize (batch : Batch) : Nat :=
  batch.commands.foldr (fun command size => command.utf8ByteSize + size) 0

end Batch

end DocumentClient
