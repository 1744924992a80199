import DocumentClient.Number.Double
/-!
# TOML values

What a key of a TOML document can be set to.
-/

namespace DocumentClient

inductive Toml where
  | string (text : String)
  | integer (value : Int)
  | float (value : Double)
  | bool (value : Bool)
  /-- A date, a time of day, or both, as it is written. -/
  | dateTime (text : String)
  | array (items : List Toml)
  | table (entries : List (String × Toml))

instance : Inhabited Toml := ⟨.bool false⟩

end DocumentClient
