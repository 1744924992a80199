import DocumentClient.Number.Double
/-!
# JSON documents

A `Json` value holds a document with its object members in order. A free-form field value holds
a document whose members stand in ascending order of their names, as `sortMembers` puts them;
the documents that records are written as keep the order of their fields instead. `equals`
compares two documents, numbers by value and an integer never equal to a real.
-/

namespace DocumentClient

/-- A number of a document. An integer literal from `-2 ^ 63` to `2 ^ 64 - 1` is an integer,
every other number a finite double. -/
inductive Json.Number where
  | integer (value : Int) (inRange : -9223372036854775808 ≤ value ∧ value ≤ 18446744073709551615)
  | real (value : Double) (isFinite : value.isFinite)
deriving DecidableEq

inductive Json where
  | null
  | bool (value : Bool)
  | number (value : Json.Number)
  | string (text : String)
  | array (items : List Json)
  | object (members : List (String × Json))

instance : Inhabited Json := ⟨.null⟩

namespace Json

/-- The number that a double is, if it is finite. -/
def Number.ofDouble? (x : Double) : Option Number :=
  if h : x.isFinite then some (.real x h) else none

/-- The document of a double: null if it is not finite. -/
def ofDouble (x : Double) : Json :=
  match Number.ofDouble? x with
  | some n => .number n
  | none => .null

/-- The document of an integer: a double if it is out of the range of integers. -/
def ofInt (n : Int) : Json :=
  if h : -9223372036854775808 ≤ n ∧ n ≤ 18446744073709551615 then .number (.integer n h)
  else ofDouble (Double.ofInt n)

/-- The word for the shape of a document. -/
def kind : Json → String
  | .null => "null"
  | .bool _ => "bool"
  | .number _ => "number"
  | .string _ => "string"
  | .array _ => "array"
  | .object _ => "object"

/-- Equality of numbers, doubles being compared as doubles are. -/
def Number.equals : Number → Number → Bool
  | .integer m _, .integer n _ => m == n
  | .real x _, .real y _ => x.equals y
  | _, _ => false

mutual

/-- Whether two documents are equal, member by member and item by item. -/
def equals : Json → Json → Bool
  | .null, .null => true
  | .bool a, .bool b => a == b
  | .number a, .number b => a.equals b
  | .string a, .string b => a == b
  | .array as, .array bs => equalItems as bs
  | .object as, .object bs => equalMembers as bs
  | _, _ => false

def equalItems : List Json → List Json → Bool
  | [], [] => true
  | a :: as, b :: bs => equals a b && equalItems as bs
  | _, _ => false

def equalMembers : List (String × Json) → List (String × Json) → Bool
  | [], [] => true
  | (m, a) :: as, (n, b) :: bs => m == n && equals a b && equalMembers as bs
  | _, _ => false

end

/-- Puts a member at its place among members in ascending order. A member of the same name is
replaced. -/
def insertMember (name : String) (value : Json) :
    List (String × Json) → List (String × Json)
  | [] => [(name, value)]
  | (other, old) :: rest =>
    if name = other then (name, value) :: rest
    else if name < other then (name, value) :: (other, old) :: rest
    else (other, old) :: insertMember name value rest

/-- The members in ascending order of their names; of equal names the last one counts. -/
def sortMembers (members : List (String × Json)) : List (String × Json) :=
  members.foldl (fun sorted member => insertMember member.1 member.2 sorted) []

end Json

end DocumentClient
