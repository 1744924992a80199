import DocumentClient.Error
import DocumentClient.Json.Draft
import DocumentClient.Json.Printer
/-!
# Values as JSON texts

A type has a `Wire.Form` if its values are written as JSON documents and read back from JSON
texts. `encode` and `decode` are the two directions; a text that does not hold a value of the
type is an error.

Readers take the number of levels that arrays and objects may still have. A structure is an
object in which unknown members are ignored and none of its own is repeated, or an array of all
its members in order.
-/

namespace DocumentClient.Wire

open Json (Draft)

/-- How values of a type are written and read. -/
class Form (α : Type) where
  read? : (depth : Nat) → Draft → Option α
  write : α → Json

/-- The JSON text of a value. -/
def encode {α : Type} [Form α] (value : α) : String :=
  String.ofList (Form.write value).text

/-- Reads a value from a JSON text. -/
def decode {α : Type} [Form α] (text : String) : Except Error α :=
  match (Draft.read? text.toList).bind (Form.read? Json.maxDepth) with
  | some value => .ok value
  | none => .error .serialization

/-! ## Writing -/

/-- The document of a value that may be absent. -/
def optional {α : Type} (write : α → Json) : Option α → Json
  | some value => write value
  | none => .null

/-- The document of a list. -/
def list {α : Type} (write : α → Json) (values : List α) : Json :=
  .array (values.map write)

/-! ## Reading -/

variable {α : Type}

def readText? : Draft → Option String
  | .string text => text
  | _ => none

def readBool? : Draft → Option Bool
  | .bool b => some b
  | _ => none

/-- Reads an integer; a number with a fraction or an exponent is none. -/
def readInt? : Draft → Option Int
  | .number literal =>
    match literal.number? with
    | some (.integer n _) => some n
    | _ => none
  | _ => none

def readInt32? (draft : Draft) : Option Int32 :=
  (readInt? draft).bind Text.toInt32?

def readInt64? (draft : Draft) : Option Int64 :=
  (readInt? draft).bind Text.toInt64?

/-- Reads an unsigned integer of 64 bits. -/
def readNat? (draft : Draft) : Option Nat :=
  (readInt? draft).bind fun n => if 0 ≤ n then some n.toNat else none

def readByte? (draft : Draft) : Option UInt8 :=
  (readNat? draft).bind fun n => if n ≤ 255 then some (UInt8.ofNat n) else none

/-- Reads a double, which may be written as an integer. -/
def readDouble? : Draft → Option Double
  | .number literal =>
    literal.number?.map fun number =>
      match number with
      | .integer n _ => Double.ofInt n
      | .real x _ => x
  | _ => none

/-- Reads null or a value. -/
def readOptional? (read : Draft → Option α) : Draft → Option (Option α)
  | .null => some none
  | draft => (read draft).map some

/-- Reads a list. -/
def readList? (read : Nat → Draft → Option α) : (depth : Nat) → Draft → Option (List α)
  | depth + 1, .array items => items.mapM (read depth)
  | _, _ => none

/-- The only member of a name, if there is one; nothing if there are more. -/
def single? (members : List (String × Draft)) (name : String) : Option (Option Draft) :=
  match members.filter fun member => member.1 == name with
  | [] => some none
  | [member] => some (some member.2)
  | _ => none

/-- The members of an object, all of whose names must be texts. -/
def namedMembers? (members : List (Option String × Draft)) : Option (List (String × Draft)) :=
  members.mapM fun member => member.1.map fun name => (name, member.2)

/-- The members of a structure in the order of these names, each if it is there. -/
def readMembers? (names : List String) : Draft → Option (List (Option Draft))
  | .object members => do
    let members ← namedMembers? members
    names.mapM (single? members)
  | .array items => if items.length = names.length then some (items.map some) else none
  | _ => none

/-- The members of a structure whose members all have defaults: an array may be shorter. -/
def readMembersOrDefaults? (names : List String) : Draft → Option (List (Option Draft))
  | .array items =>
    if items.length ≤ names.length then some (names.mapIdx fun place _ => items[place]?) else none
  | draft => readMembers? names draft

/-- Reads a member that has to be there. -/
def required? (read : Draft → Option α) (member : Option Draft) : Option α :=
  member.bind read

/-- Reads a member that is null if it is not there. -/
def nullable? (read : Draft → Option α) : Option Draft → Option (Option α)
  | none => some none
  | some draft => readOptional? read draft

/-- Reads a member that takes a default if it is not there. -/
def orDefault? (read : Draft → Option α) (default : α) : Option Draft → Option α
  | none => some default
  | some draft => read draft

/-- Reads one of some words, given alone or as the only member of an object, which is null. -/
def readWord? (ofWord? : String → Option α) : (depth : Nat) → Draft → Option α
  | _, .string (some word) => ofWord? word
  | _ + 1, .object [(some word, .null)] => ofWord? word
  | _, _ => none

end DocumentClient.Wire
