import DocumentClient.Batch.Basic
import DocumentClient.Command.Classification
import DocumentClient.Command.Script
import DocumentClient.Engine.Rows
/-!
# Batch sessions

A session collects commands and commits them at most once, as one script. Its phases only move
forward: it accumulates commands, then it is committed, then it is closed. A commit that fails
closes it, and nothing but a commit calls the engine. The result of the commit is kept beside the
phase: `finish` sets both, and `close` and `abandon` give both up.
-/

namespace DocumentClient

/-- How far a session has come. -/
inductive Session.Phase where
  | accumulating
  | committed
  /-- Released, abandoned, or spent by a failed commit. -/
  | closed
deriving DecidableEq

/-- A batch of commands on its way to the engine. -/
structure Session where
  settings : TransactionSettings
  batch : Batch
  phase : Session.Phase
  /-- The result of the commit, if there is one. -/
  result : Option QueryResult

namespace Session

/-- The word for a phase. -/
def Phase.name : Phase → String
  | accumulating => "accumulating"
  | committed => "committed"
  | closed => "closed"

/-- The session without commands. -/
def start (settings : TransactionSettings) : Session :=
  ⟨settings, {}, .accumulating, none⟩

def isAccumulating (s : Session) : Bool :=
  s.phase == .accumulating

def isCommitted (s : Session) : Bool :=
  s.phase == .committed

/-- The rows that the commit produced. -/
def rows (s : Session) : List Record :=
  match s.result with
  | some result => result.records
  | none => []

/-- The script of the commands so far. -/
def script (s : Session) : String :=
  (ScriptFrame.ofSettings s.settings).script s.batch.commands

/-- The error of a call that comes too late. -/
def tooLate : Error :=
  .misuse "session already committed"

/-- Adds a command, and says whether it was stored: a blank one is not. -/
def append (s : Session) (command : String) : Except Error Bool × Session :=
  if !s.isAccumulating then (.error tooLate, s)
  else if Text.isBlankText command then (.ok false, s)
  else
    match Command.ensureTransactional command with
    | .error error => (.error error, s)
    | .ok () =>
      let (stored, batch) := s.batch.push command
      (.ok stored, { s with batch })

/-- Commits the session with a result. -/
def finish (s : Session) (result : QueryResult) : Session :=
  { s with phase := .committed, result := some result }

/-- Runs the commands as one script and keeps the result. An empty batch is committed without
a call of the engine. -/
def commit {σ : Type} (e : Engine σ) (s : Session) (state : σ) :
    Except Error QueryResult × Session × σ :=
  if !s.isAccumulating then (.error tooLate, s, state)
  else if s.batch.isEmpty then
    (.ok .empty, s.finish .empty, state)
  else
    match e.execute s.settings.language s.script state with
    | (.error error, state) => (.error error, { s with phase := .closed }, state)
    | (.ok raw, state) =>
      let (result, state) := e.resultOf raw state
      (.ok result, s.finish result, state)

/-- Releases a committed session whose connection commits automatically, and says whether it
did. -/
def close (s : Session) (autoCommit : Bool) : Bool × Session :=
  if s.isCommitted && autoCommit then (true, { s with phase := .closed, result := none })
  else (false, s)

/-- Drops the session without a commit. -/
def abandon (s : Session) : Session :=
  if s.phase = .closed then s else { s with phase := .closed, result := none }

/-- A call of a session. -/
inductive Action where
  | append (command : String)
  | commit
  | close (autoCommit : Bool)
  | abandon
deriving DecidableEq

/-- What a call of a session returns. -/
inductive Answer where
  | flag (value : Bool)
  | result (result : QueryResult)
  | done

/-- Carries out a call. -/
def step {σ : Type} (e : Engine σ) (action : Action) (s : Session) (state : σ) :
    Except Error Answer × Session × σ :=
  match action with
  | .append command =>
    let (answer, s) := s.append command
    (answer.map .flag, s, state)
  | .commit =>
    let (answer, s, state) := s.commit e state
    (answer.map .result, s, state)
  | .close autoCommit =>
    let (closed, s) := s.close autoCommit
    (.ok (.flag closed), s, state)
  | .abandon => (.ok .done, s.abandon, state)

end Session

end DocumentClient
