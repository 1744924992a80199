import DocumentClient.Engine.Basic
import DocumentClient.QueryResult
/-!
# Rows of raw results

Whatever an engine returns is turned into rows: a count into one row that holds it, a link into
the record it stands for. A link that cannot be resolved gives no rows and a warning; the
engine has already done the work by then, so it is no failure. `Engine.rowsOf` does this,
`Engine.resultOf` makes a table of the rows.
-/

namespace DocumentClient

/-- Why a raw result gave no rows. -/
inductive RowWarning where
  | missingRecord (rid : RecordId)
  | unresolvedLink (rid : RecordId) (error : EngineError)
  | unrecognizedShape (kind : String)
deriving DecidableEq

/-- The text of a warning, without its particulars. -/
def RowWarning.message : RowWarning → String
  | missingRecord _ => "linked record not found, returning no rows"
  | unresolvedLink _ _ => "failed to resolve linked record"
  | unrecognizedShape _ => "dropping unrecognized result shape"

/-- The name of the only field in the row of a count. -/
def countField : String := "VALUE"

/-- The row of a count. -/
def countRow (n : Int) : Record :=
  .ofFields [(countField, .int64 (Int64.ofInt n))]

namespace Engine

variable {σ : Type}

/-- The rows of a raw result, and a warning if there should have been some. -/
def rowsOf (e : Engine σ) (raw : RawResult) (state : σ) :
    (List Record × Option RowWarning) × σ :=
  match raw with
  | .count n => (([countRow n], none), state)
  | .record record => (([record], none), state)
  | .records records => ((records, none), state)
  | .link rid =>
    match e.loadRecord rid state with
    | (.ok (some record), state) => (([record], none), state)
    | (.ok none, state) => (([], some (.missingRecord rid)), state)
    | (.error error, state) => (([], some (.unresolvedLink rid error)), state)
  | .unrecognized document => (([], some (.unrecognizedShape document.kind)), state)
  | .empty => (([], none), state)

/-- The table of a raw result. -/
def resultOf (e : Engine σ) (raw : RawResult) (state : σ) : QueryResult × σ :=
  let ((rows, _), state) := e.rowsOf raw state
  ((QueryResult.tabulate rows).withAffected raw.affected, state)

/-- Runs a command and makes a table of what it returns. -/
def run (e : Engine σ) (command : String) (state : σ) : Except Error QueryResult × σ :=
  match e.runCommand command state with
  | (.ok raw, state) =>
    let (result, state) := e.resultOf raw state
    (.ok result, state)
  | (.error error, state) => (.error error.toError, state)

end Engine

end DocumentClient
