import DocumentClient.Connection
import DocumentClient.Proofs.SessionLifecycle

/-!
# The steps of a connection

`Transition` lists everything that an operation on a connection can do, with its answer, the
calls that reach the engine and the connection after it, and `perform_eq` says that nothing else
happens. `WellFormed` is what every connection in use satisfies: a connection that commits
automatically, or is closed, holds no session, and a held session has the settings of the
connection and a result exactly if it is committed.
-/

namespace DocumentClient.Connection

/-! ## The open session -/

/-- The session that the next command goes to accepts commands. -/
theorem openSession_isAccumulating (c : Connection) : c.openSession.isAccumulating = true := by
  unfold openSession
  split
  · split
    · assumption
    · rfl
  · rfl

/-- Its commands are the pending ones. -/
theorem openSession_commands (c : Connection) :
    c.openSession.batch.commands = c.pendingCommands := by
  unfold openSession pendingCommands
  split
  · split <;> rfl
  · rfl

/-! ## Connections in use -/

/-- What holds of a connection with these settings, whatever was done with it. -/
structure WellFormed (settings : Settings) (c : Connection) : Prop where
  settings_eq : c.settings = settings
  automatic : c.autoCommit = true → c.session = none
  closed : c.closed = true → c.session = none
  session_settings : ∀ s, c.session = some s → s.settings = settings.transaction
  session_result : ∀ s, c.session = some s → s.ResultAgrees

/-- A new connection holds no session. -/
theorem wellFormed_start (settings : Settings) (config : Config) :
    WellFormed settings (start settings config) :=
  ⟨rfl, fun _ => rfl, fun _ => rfl, (fun _ h => nomatch h), (fun _ h => nomatch h)⟩

variable {settings : Settings} {c : Connection}

/-- The open session has the settings of the connection. -/
theorem WellFormed.openSession_settings (hc : c.WellFormed settings) :
    c.openSession.settings = settings.transaction := by
  unfold openSession
  split
  · next s hsession =>
      split
      · exact hc.session_settings s hsession
      · exact congrArg Settings.transaction hc.settings_eq
  · exact congrArg Settings.transaction hc.settings_eq

/-- It has a result exactly if it is committed, which it is not. -/
theorem WellFormed.openSession_result (hc : c.WellFormed settings) :
    c.openSession.ResultAgrees := by
  unfold openSession
  split
  · next s hsession =>
      split
      · exact hc.session_result s hsession
      · exact Session.resultAgrees_start _
  · exact Session.resultAgrees_start _

/-- A connection that holds a session for its next command keeps its form. -/
theorem WellFormed.with_session (hc : c.WellFormed settings) {s : Session}
    (hmode : c.autoCommit = false) (hopen : c.closed = false)
    (hs : s.settings = settings.transaction) (hresult : s.ResultAgrees) :
    WellFormed settings { c with session := some s } where
  settings_eq := hc.settings_eq
  automatic hauto := absurd (hmode.symm.trans hauto) Bool.false_ne_true
  closed hclosed := absurd (hopen.symm.trans hclosed) Bool.false_ne_true
  session_settings t ht := by
    obtain rfl := Option.some.inj ht
    exact hs
  session_result t ht := by
    obtain rfl := Option.some.inj ht
    exact hresult

/-- A connection that gives up its session keeps its form, whatever its mode becomes. -/
theorem WellFormed.without_session (hc : c.WellFormed settings) (autoCommit closed : Bool) :
    WellFormed settings { c with autoCommit, closed, session := none } :=
  ⟨hc.settings_eq, fun _ => rfl, fun _ => rfl, (fun _ h => nomatch h), (fun _ h => nomatch h)⟩

/-! ## Steps -/

variable {σ : Type} [ExpressionCompiler]

/-- What can be seen of an operation on a connection. -/
abbrev Event (σ : Type) := DocumentClient.Event Connection Operation (Except Error Answer) σ

/-- The events of operations, each with the state in which it finds the engine. -/
abbrev events (e : Engine σ) (operations : List (Operation × σ)) (c : Connection) :
    List (Event σ) :=
  Run.events (step e.traced) operations c

/-- The connection after operations. -/
abbrev final (e : Engine σ) (operations : List (Operation × σ)) (c : Connection) : Connection :=
  Run.final (step e.traced) operations c

/-- The events of operations are that of the first one and those of the others after it. -/
theorem events_cons (e : Engine σ) (operation : Operation) (state : σ)
    (operations : List (Operation × σ)) (c : Connection) :
    events e ((operation, state) :: operations) c =
      Run.perform (step e.traced) c operation state ::
        events e operations (Run.perform (step e.traced) c operation state).after :=
  rfl

/-- Whether an operation fails on a closed connection. -/
def Operation.needsOpen : Operation → Bool
  | .closeBatch | .close | .list _ => false
  | _ => true

/-- The calls that a listing makes. -/
def listCalls (listing : Listing) : List Call :=
  if listing.readsCatalog then [.catalog] else []

/-- `Transition e c state operation answer calls after` says that the operation gives the answer,
makes the calls of the engine, and leaves the connection `after`. -/
inductive Transition (e : Engine σ) (c : Connection) (state : σ) :
    Operation → Except Error Answer → List Call → Connection → Prop where
  | refuse (operation : Operation) (hclosed : c.closed = true)
      (hneeds : operation.needsOpen = true) :
      Transition e c state operation (.error isClosedError) [] c
  | ignore (command : String) (hopen : c.closed = false)
      (hblank : Text.isBlankText command = true) :
      Transition e c state (.execute command) (.ok (.statement .ignored)) [] c
  | run (command : String) (hopen : c.closed = false)
      (hblank : Text.isBlankText command = false) (hmode : c.autoCommit = true) :
      Transition e c state (.execute command)
        (((e.run command state).1.map .executed).map .statement) (e.commandCalls command state) c
  | reject (command : String) (hopen : c.closed = false)
      (hblank : Text.isBlankText command = false) (hmode : c.autoCommit = false)
      (hclass : Command.classify command = .reject) :
      Transition e c state (.execute command)
        (.error (.rejectedCommand (Text.trimmed command))) []
        { c with session := some c.openSession }
  | queue (command : String) (hopen : c.closed = false)
      (hblank : Text.isBlankText command = false) (hmode : c.autoCommit = false)
      (hclass : Command.classify command = .accept) :
      Transition e c state (.execute command) (.ok (.statement .queued)) []
        { c with session := some (c.openSession.withCommand command) }
  | blankQuery (command : String) (hopen : c.closed = false)
      (hblank : Text.isBlankText command = true) :
      Transition e c state (.query command) (.ok (.result .empty)) [] c
  | query (command : String) (hopen : c.closed = false)
      (hblank : Text.isBlankText command = false) :
      Transition e c state (.query command) ((e.run command state).1.map .result)
        (e.commandCalls command state) c
  | setAutoCommit (enabled : Bool) (hopen : c.closed = false) :
      Transition e c state (.setAutoCommit enabled) (.ok .done) []
        { c with autoCommit := enabled, session := if enabled then none else c.session }
  | commitNothing (hopen : c.closed = false) (hnone : c.autoCommit = true ∨ c.session = none) :
      Transition e c state .commit (.ok (.result .empty)) [] c
  | commit (s after : Session) (answer : Except Error QueryResult) (calls : List Call)
      (hopen : c.closed = false) (hmode : c.autoCommit = false) (hsession : c.session = some s)
      (hcommit : Session.Transition e s state .commit (answer.map .result) calls after) :
      Transition e c state .commit (answer.map .result) calls { c with session := some after }
  | rollback (hopen : c.closed = false) :
      Transition e c state .rollback (.ok .done) []
        { c with session := if c.isAccumulating then none else c.session }
  | release (s : Session) (hsession : c.session = some s) (hphase : s.isCommitted = true)
      (hmode : c.autoCommit = true) :
      Transition e c state .closeBatch (.ok (.flag true)) [] { c with session := none }
  | keep (hkeep : ∀ s, c.session = some s → (s.isCommitted && c.autoCommit) = false) :
      Transition e c state .closeBatch (.ok (.flag false)) [] c
  | close (hopen : c.closed = false) :
      Transition e c state .close
        (((e.close state).1.mapError EngineError.toError).map fun _ => .done) [.close]
        { c with session := none, closed := true }
  | closeAgain (hclosed : c.closed = true) :
      Transition e c state .close (.ok .done) [] c
  | list (listing : Listing) :
      Transition e c state (.list listing) ((e.list listing state).1.map .result)
        (listCalls listing) c

/-- The event of an operation is one of the transitions. -/
def Explained (e : Engine σ) (c : Connection) (operation : Operation) (state : σ) : Prop :=
  ∃ answer calls after, Transition e c state operation answer calls after ∧
    Run.perform (step e.traced) c operation state =
      ⟨c, operation, state, answer, calls, after⟩

/-- Executions on an open connection: ignored, run, queued or rejected. -/
theorem explained_execute (e : Engine σ) (c : Connection) (command : String) (state : σ)
    (hopen : c.closed = false) : Explained e c (.execute command) state := by
  cases hblank : Text.isBlankText command with
  | true =>
      exact ⟨_, _, _, .ignore command hopen hblank, by
        simp [Run.perform, step, execute, hopen, hblank, Except.map]⟩
  | false =>
      cases hmode : c.autoCommit with
      | true =>
          exact ⟨_, _, _, .run command hopen hblank hmode, by
            simp [Run.perform, step, execute, hopen, hblank, hmode, Engine.traced_run]⟩
      | false =>
          have hphase := c.openSession_isAccumulating
          cases hclass : Command.classify command with
          | accept =>
              have happend := Session.append_accept hphase hblank hclass
              exact ⟨_, _, _, .queue command hopen hblank hmode hclass, by
                simp [Run.perform, step, execute, hopen, hblank, hmode, enqueue, happend,
                  Except.map]⟩
          | reject =>
              have happend := Session.append_reject hphase hblank hclass
              exact ⟨_, _, _, .reject command hopen hblank hmode hclass, by
                simp [Run.perform, step, execute, hopen, hblank, hmode, enqueue, happend,
                  Except.map]⟩

/-- Queries on an open connection: ignored or run. -/
theorem explained_query (e : Engine σ) (c : Connection) (command : String) (state : σ)
    (hopen : c.closed = false) : Explained e c (.query command) state := by
  cases hblank : Text.isBlankText command with
  | true =>
      exact ⟨_, _, _, .blankQuery command hopen hblank, by
        simp [Run.perform, step, query, hopen, hblank, Except.map]⟩
  | false =>
      exact ⟨_, _, _, .query command hopen hblank, by
        simp [Run.perform, step, query, hopen, hblank, Engine.traced_run]⟩

/-- Commits on an open connection: without a session, or of the held one. -/
theorem explained_commit (e : Engine σ) (c : Connection) (state : σ) (hopen : c.closed = false) :
    Explained e c .commit state := by
  cases hmode : c.autoCommit with
  | true =>
      exact ⟨_, _, _, .commitNothing hopen (.inl hmode), by
        simp [Run.perform, step, commit, hopen, hmode, Except.map]⟩
  | false =>
      cases hsession : c.session with
      | none =>
          exact ⟨_, _, _, .commitNothing hopen (.inr hsession), by
            simp [Run.perform, step, commit, hopen, hmode, hsession, Except.map]⟩
      | some s =>
          obtain ⟨answer, calls, after, next, hcommit, htransition⟩ :=
            Session.commit_traced e s state
          exact ⟨_, _, _, .commit s after answer calls hopen hmode hsession htransition, by
            simp [Run.perform, step, commit, hopen, hmode, hsession, hcommit]⟩

/-- Releases: of a committed session in automatic mode, or of none. -/
theorem explained_closeBatch (e : Engine σ) (c : Connection) (state : σ) :
    Explained e c .closeBatch state := by
  cases hsession : c.session with
  | none =>
      exact ⟨_, _, _, .keep (by simp [hsession]), by
        simp [Run.perform, step, closeBatch, hsession]⟩
  | some s =>
      cases hkeep : s.isCommitted && c.autoCommit with
      | true =>
          obtain ⟨hphase, hmode⟩ := Bool.and_eq_true_iff.mp hkeep
          exact ⟨_, _, _, .release s hsession hphase hmode, by
            simp [Run.perform, step, closeBatch, hsession, Session.close, hphase, hmode]⟩
      | false =>
          have hsame : { c with session := some s } = c := by rw [← hsession]
          have hkept : ∀ t, c.session = some t → (t.isCommitted && c.autoCommit) = false := by
            intro t ht
            obtain rfl := Option.some.inj (hsession.symm.trans ht)
            exact hkeep
          exact ⟨_, _, _, .keep hkept, by
            simp [Run.perform, step, closeBatch, hsession, Session.close, hkeep, hsame]⟩

/-- Closes: the first one or another. -/
theorem explained_close (e : Engine σ) (c : Connection) (state : σ) :
    Explained e c .close state := by
  cases hclosed : c.closed with
  | true =>
      exact ⟨_, _, _, .closeAgain hclosed, by simp [Run.perform, step, close, hclosed, Except.map]⟩
  | false =>
      exact ⟨_, _, _, .close hclosed, by
        simp [Run.perform, step, close, hclosed, Engine.traced, Call.logged]⟩

/-- Listings: with or without the catalog, which may fail to be read. -/
theorem explained_list (e : Engine σ) (c : Connection) (listing : Listing) (state : σ) :
    Explained e c (.list listing) state := by
  refine ⟨_, _, _, .list listing, ?_⟩
  cases hreads : listing.readsCatalog with
  | false => simp [Run.perform, step, Engine.list, hreads, listCalls, Engine.traced]
  | true =>
      rcases hreply : e.readCatalog state with ⟨error | catalog, next⟩ <;>
        simp [Run.perform, step, Engine.list, hreads, listCalls, hreply, Engine.traced, Call.logged]

/-- Every operation on a connection is one of the transitions. -/
theorem perform_eq (e : Engine σ) (c : Connection) (operation : Operation) (state : σ) :
    ∃ answer calls after, Transition e c state operation answer calls after ∧
      Run.perform (step e.traced) c operation state =
        ⟨c, operation, state, answer, calls, after⟩ := by
  cases hclosed : c.closed with
  | true =>
      cases operation with
      | closeBatch => exact explained_closeBatch e c state
      | close => exact explained_close e c state
      | list listing => exact explained_list e c listing state
      | _ =>
          exact ⟨_, _, _, .refuse _ hclosed rfl, by
            simp [Run.perform, step, execute, query, setAutoCommit, commit, rollback, hclosed,
              Except.map]⟩
  | false =>
      cases operation with
      | execute command => exact explained_execute e c command state hclosed
      | query command => exact explained_query e c command state hclosed
      | setAutoCommit enabled =>
          exact ⟨_, _, _, .setAutoCommit enabled hclosed, by
            simp [Run.perform, step, setAutoCommit, hclosed, Except.map]⟩
      | commit => exact explained_commit e c state hclosed
      | rollback =>
          exact ⟨_, _, _, .rollback hclosed, by
            simp [Run.perform, step, rollback, hclosed, Except.map]⟩
      | closeBatch => exact explained_closeBatch e c state
      | close => exact explained_close e c state
      | list listing => exact explained_list e c listing state

/-- The event of every operation is one of the transitions. -/
theorem transition_perform (e : Engine σ) (c : Connection) (operation : Operation) (state : σ) :
    Transition e c state operation (Run.perform (step e.traced) c operation state).answer
      (Run.perform (step e.traced) c operation state).calls
      (Run.perform (step e.traced) c operation state).after := by
  obtain ⟨answer, calls, after, htransition, hperform⟩ := perform_eq e c operation state
  rw [hperform]
  exact htransition

/-- Whatever an operation does, the connection stays well formed. -/
theorem Transition.wellFormed {e : Engine σ} {state : σ} {operation : Operation}
    {answer : Except Error Answer} {calls : List Call} {after : Connection}
    (h : Transition e c state operation answer calls after) (hc : c.WellFormed settings) :
    after.WellFormed settings := by
  cases h with
  | refuse | ignore | run | blankQuery | query | commitNothing | keep | closeAgain | list =>
      exact hc
  | reject _ hopen _ hmode | queue _ hopen _ hmode =>
      exact hc.with_session hmode hopen hc.openSession_settings hc.openSession_result
  | setAutoCommit enabled hopen =>
      cases enabled with
      | true => exact hc.without_session true c.closed
      | false =>
          exact ⟨hc.settings_eq, (fun h => nomatch h), hc.closed, hc.session_settings,
            hc.session_result⟩
  | commit s after _ _ hopen hmode hsession hcommit =>
      have hs := hcommit.settings_eq.trans (hc.session_settings s hsession)
      have hresult := hcommit.resultAgrees (hc.session_result s hsession)
      exact hc.with_session hmode hopen hs hresult
  | rollback hopen =>
      cases hphase : c.isAccumulating with
      | true => exact hc.without_session c.autoCommit c.closed
      | false => exact hc
  | release => exact hc.without_session c.autoCommit c.closed
  | close => exact hc.without_session c.autoCommit true

/-! ## Runs -/

/-- A connection stays well formed over any operations. -/
theorem wellFormed_final (e : Engine σ) {settings : Settings} (operations : List (Operation × σ))
    {c : Connection} (hc : c.WellFormed settings) : (final e operations c).WellFormed settings :=
  Run.final_invariant (WellFormed settings)
    (fun c operation state hc => (transition_perform e c operation state).wellFormed hc)
    operations hc

/-- Every operation of a run on a new connection is one of the transitions of a connection in
use. -/
theorem transition_of_mem {e : Engine σ} {settings : Settings} {config : Config}
    {operations : List (Operation × σ)} {event : Event σ}
    (h : event ∈ events e operations (start settings config)) :
    event.before.WellFormed settings ∧ Transition e event.before event.state event.request
      event.answer event.calls event.after := by
  obtain ⟨c, operation, state, hc, rfl⟩ := Run.event_invariant (WellFormed settings)
    (fun c operation state hc => (transition_perform e c operation state).wellFormed hc)
    (wellFormed_start settings config) h
  exact ⟨hc, transition_perform e c operation state⟩

end DocumentClient.Connection
