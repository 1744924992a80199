import DocumentClient.Batch.Session
import DocumentClient.Config.Basic
import DocumentClient.Metadata.Basic
/-!
# Connections

A connection runs commands on an engine. While it commits automatically, each command runs on
its own; otherwise commands are queued in a session and sent as one script by `commit`. Queries
run at once in either mode, and so do the listings of the metadata, which do not ask whether the
connection is closed. `step` carries out one operation on the connection and the state of its
engine.
-/

namespace DocumentClient

/-- A connection, apart from its engine. -/
structure Connection where
  settings : Settings
  config : Config
  autoCommit : Bool
  session : Option Session
  closed : Bool

namespace Connection

/-- A new connection, in the mode of its settings. -/
def start (settings : Settings) (config : Config) : Connection :=
  ⟨settings, config, settings.connection.autoCommit, none, false⟩

/-- The error of an operation on a closed connection. -/
def isClosedError : Error :=
  .connection "connection is closed"

/-- Whether the held session accepts commands. -/
def isAccumulating (c : Connection) : Bool :=
  c.session.any Session.isAccumulating

/-- The commands queued in the open transaction. -/
def pendingCommands (c : Connection) : List String :=
  match c.session with
  | some s => if s.isAccumulating then s.batch.commands else []
  | none => []

/-- The phase of the held session. -/
def sessionPhase? (c : Connection) : Option Session.Phase :=
  c.session.map (·.phase)

/-- The result of the last commit, as long as its session is held. -/
def transactionResult? (c : Connection) : Option QueryResult :=
  c.session.bind Session.result

/-- The session that the next command goes to: the held one if it accepts commands, else a new
one. -/
def openSession (c : Connection) : Session :=
  match c.session with
  | some s => if s.isAccumulating then s else Session.start c.settings.transaction
  | none => Session.start c.settings.transaction

/-- Queues a command in the open session. -/
def enqueue (c : Connection) (command : String) : Except Error StatementResult × Connection :=
  let (answer, s) := c.openSession.append command
  (answer.map fun _ => .queued, { c with session := some s })

variable {σ : Type}

/-- Submits a command. Blank commands are ignored. -/
def execute (e : Engine σ) (c : Connection) (command : String) (state : σ) :
    Except Error StatementResult × Connection × σ :=
  if c.closed then (.error isClosedError, c, state)
  else if Text.isBlankText command then (.ok .ignored, c, state)
  else if c.autoCommit then
    let (answer, state) := e.run command state
    (answer.map .executed, c, state)
  else
    let (answer, c) := c.enqueue command
    (answer, c, state)

/-- Runs a command at once and returns its rows. -/
def query (e : Engine σ) (c : Connection) (command : String) (state : σ) :
    Except Error QueryResult × σ :=
  if c.closed then (.error isClosedError, state)
  else if Text.isBlankText command then (.ok .empty, state)
  else e.run command state

/-- Changes the mode. Automatic commits drop the open transaction. -/
def setAutoCommit (c : Connection) (enabled : Bool) : Except Error Unit × Connection :=
  if c.closed then (.error isClosedError, c)
  else (.ok (), { c with autoCommit := enabled, session := if enabled then none else c.session })

/-- Commits the open transaction. -/
def commit (e : Engine σ) (c : Connection) (state : σ) :
    Except Error QueryResult × Connection × σ :=
  if c.closed then (.error isClosedError, c, state)
  else if c.autoCommit then (.ok .empty, c, state)
  else
    match c.session with
    | none => (.ok .empty, c, state)
    | some s =>
      let (answer, s, state) := s.commit e state
      (answer, { c with session := some s }, state)

/-- Drops the open transaction. A session that no longer accepts commands stays. -/
def rollback (c : Connection) : Except Error Unit × Connection :=
  if c.closed then (.error isClosedError, c)
  else (.ok (), { c with session := if c.isAccumulating then none else c.session })

/-- Releases a committed session in automatic mode, and says whether it did. -/
def closeBatch (c : Connection) : Bool × Connection :=
  match c.session with
  | none => (false, c)
  | some s =>
    match s.close c.autoCommit with
    | (true, _) => (true, { c with session := none })
    | (false, s) => (false, { c with session := some s })

/-- Closes the connection and its engine. A closed connection stays as it is. -/
def close (e : Engine σ) (c : Connection) (state : σ) : Except Error Unit × Connection × σ :=
  if c.closed then (.ok (), c, state)
  else
    let (answer, state) := e.close state
    (answer.mapError EngineError.toError, { c with session := none, closed := true }, state)

/-- An operation on a connection. -/
inductive Operation where
  | execute (command : String)
  | query (command : String)
  | setAutoCommit (enabled : Bool)
  | commit
  | rollback
  | closeBatch
  | close
  | list (listing : Listing)
deriving DecidableEq

/-- What an operation returns. -/
inductive Answer where
  | statement (result : StatementResult)
  | result (result : QueryResult)
  | flag (value : Bool)
  | done

/-- Carries out an operation. -/
def step [ExpressionCompiler] (e : Engine σ) (operation : Operation) (c : Connection)
    (state : σ) : Except Error Answer × Connection × σ :=
  match operation with
  | .execute command =>
    let (answer, c, state) := c.execute e command state
    (answer.map .statement, c, state)
  | .query command =>
    let (answer, state) := c.query e command state
    (answer.map .result, c, state)
  | .setAutoCommit enabled =>
    let (answer, c) := c.setAutoCommit enabled
    (answer.map fun _ => .done, c, state)
  | .commit =>
    let (answer, c, state) := c.commit e state
    (answer.map .result, c, state)
  | .rollback =>
    let (answer, c) := c.rollback
    (answer.map fun _ => .done, c, state)
  | .closeBatch =>
    let (released, c) := c.closeBatch
    (.ok (.flag released), c, state)
  | .close =>
    let (answer, c, state) := c.close e state
    (answer.map fun _ => .done, c, state)
  | .list listing =>
    let (answer, state) := e.list listing state
    (answer.map .result, c, state)

end Connection

end DocumentClient
