import DocumentClient.Config.Url
import DocumentClient.Engine.Basic
import DocumentClient.Metadata.Listing
import DocumentClient.QueryResult
/-!
# Metadata of a database

The metadata of the database behind an engine: what it is called, and the listings of its
catalog as tables. A listing that needs the catalog asks the engine for it each time.
-/

namespace DocumentClient

/-- The version of this client. -/
def clientVersion : String := "0.1.0"

/-- What a database says of itself and its driver. -/
structure DatabaseInfo where
  productName : String
  productVersion : String
  driverName : String
  driverVersion : String
  url : String
  userName : Option String
  /-- The keywords that SQL does not have, separated by commas. -/
  sqlKeywords : String
  timeDateFunctions : String
deriving DecidableEq

/-- What the database behind an engine says of itself. -/
def Engine.info {σ : Type} (e : Engine σ) : DatabaseInfo where
  productName := "OrientDB"
  productVersion := e.productVersion
  driverName := Url.driverName
  driverVersion := clientVersion
  url := e.url
  userName := e.userName
  sqlKeywords := "@rid,@class,@version,@size,@type,@this,CONTAINS,CONTAINSALL,CONTAINSKEY," ++
    "CONTAINSVALUE,CONTAINSTEXT,MATCHES,TRAVERSE"
  timeDateFunctions := "date,sysdate"

/-- The table of a listing. -/
def Engine.list [ExpressionCompiler] {σ : Type} (e : Engine σ) (listing : Listing)
    (state : σ) : Except Error QueryResult × σ :=
  if listing.readsCatalog then
    match e.readCatalog state with
    | (.ok catalog, state) =>
      (.ok (.tabulate (listing.records e.databaseName catalog)), state)
    | (.error error, state) => (.error error.toError, state)
  else (.ok (.tabulate (listing.records e.databaseName .empty)), state)

end DocumentClient
