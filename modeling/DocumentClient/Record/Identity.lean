import DocumentClient.Error
import DocumentClient.Text.Blank
import DocumentClient.Text.Integer
import DocumentClient.Text.Splitting
/-!
# Record identities

A stored record is known by its cluster and its position in it, written `#cluster:position`.
`RecordId.read` reads that form with blanks around it.
-/

namespace DocumentClient

/-- The identity of a stored record. -/
structure RecordId where
  cluster : Int32
  position : Int64
deriving DecidableEq

namespace RecordId

/-- The written form of an identity. -/
def text (rid : RecordId) : List Char :=
  '#' :: Text.integer rid.cluster.toInt ++ ':' :: Text.integer rid.position.toInt

/-- Reads the written form of an identity, without blanks. -/
def read? : List Char → Option RecordId
  | '#' :: body => do
    let (cluster, position) ← Text.cutAt ':' body
    let cluster ← Text.readInt32? cluster
    let position ← Text.readInt64? position
    return ⟨cluster, position⟩
  | _ => none

/-- Reads an identity, with blanks around it. -/
def read (text : String) : Except Error RecordId :=
  match read? (Text.trim text.toList) with
  | some rid => .ok rid
  | none => .error (.configuration ("Invalid record id: " ++ text))

/-- Identities are ordered by cluster, then by position. -/
def order (a b : RecordId) : Ordering :=
  (compare a.cluster.toInt b.cluster.toInt).then (compare a.position.toInt b.position.toInt)

end RecordId

end DocumentClient
