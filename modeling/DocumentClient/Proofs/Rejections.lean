import DocumentClient.Proofs.CommitAtomicity

/-!
# Rejected commands

A command that changes the schema is rejected in manual mode. No rejection calls the engine or
touches the pending commands. But a session is opened for a command before the command is looked
at, so a rejection goes unnoticed exactly if the held session accepts commands (`rejection`).
Otherwise a new session takes the place of the held one, whose result is lost, or of no session
at all, and two commits in a row tell the difference.
-/

namespace DocumentClient

/-- No engine reports that a command was rejected. -/
theorem Engine.run_ne_rejected {σ : Type} (e : Engine σ) (command text : String) (state : σ) :
    (e.run command state).1 ≠ .error (.rejectedCommand text) := by
  rw [run]
  split
  · simp
  · next error _ _ => cases error <;> simp [EngineError.toError]

namespace Connection

open Memory

variable {σ : Type}

/-! ## What a caller sees -/

/-- What a caller can ask of a connection between operations. -/
structure View where
  hasSession : Bool
  /-- The word for the phase of the held session. -/
  phase : Option String
  pendingCommands : List String
  result : Option QueryResult
  autoCommit : Bool
  closed : Bool

def view (c : Connection) : View where
  hasSession := c.session.isSome
  phase := c.sessionPhase?.map Session.Phase.name
  pendingCommands := c.pendingCommands
  result := c.transactionResult?
  autoCommit := c.autoCommit
  closed := c.closed

/-- The answers of operations, each with the state in which it finds the engine. -/
def answers [ExpressionCompiler] (e : Engine σ) (operations : List (Operation × σ))
    (c : Connection) : List (Except Error Answer) :=
  (events e operations c).map (·.answer)

/-- The answers to a run are the first one and those of the connection it leaves. -/
theorem answers_cons [ExpressionCompiler] (e : Engine σ) (operation : Operation) (state : σ)
    (operations : List (Operation × σ)) (c : Connection) :
    answers e ((operation, state) :: operations) c =
      (Run.perform (step e.traced) c operation state).answer ::
        answers e operations (Run.perform (step e.traced) c operation state).after :=
  rfl

/-! ## The session that a rejection leaves -/

/-- A connection accumulates exactly while its session does. -/
theorem isAccumulating_of_some {c : Connection} {s : Session} (h : c.session = some s) :
    c.isAccumulating = s.isAccumulating := by
  rw [isAccumulating, h, Option.any_some]

/-- The connection that holds the session its next command goes to. -/
def opened (c : Connection) : Connection :=
  { c with session := some c.openSession }

/-- A session that accumulates stays the one in use. -/
theorem opened_of_accumulating {c : Connection} (h : c.isAccumulating = true) : c.opened = c := by
  have hsession : some c.openSession = c.session := by
    unfold openSession
    cases hheld : c.session with
    | none => simp [isAccumulating, hheld] at h
    | some s =>
        rw [isAccumulating_of_some hheld] at h
        simp [h]
  rw [opened, hsession]

/-- A session that is missing or over is replaced by a new one. -/
theorem opened_of_not_accumulating {c : Connection} (h : c.isAccumulating = false) :
    c.opened = { c with session := some (Session.start c.settings.transaction) } := by
  have hsession : c.openSession = Session.start c.settings.transaction := by
    unfold openSession
    cases hheld : c.session with
    | none => rfl
    | some s =>
        rw [isAccumulating_of_some hheld] at h
        simp [h]
  rw [opened, hsession]

/-- Opening a session leaves the queued commands as they are. -/
theorem opened_pendingCommands (c : Connection) : c.opened.pendingCommands = c.pendingCommands := by
  rw [pendingCommands_of_accumulating rfl c.openSession_isAccumulating, openSession_commands]

/-- Only a session that accepts commands is in the phase of a new one. -/
theorem view_phase_of_not_accumulating {c : Connection} (h : c.isAccumulating = false) :
    c.view.phase ≠ some "accumulating" := by
  rw [view, sessionPhase?]
  cases hsession : c.session with
  | none => simp
  | some s =>
      rw [isAccumulating_of_some hsession, Session.isAccumulating] at h
      cases hphase : s.phase with
      | accumulating => simp [hphase] at h
      | committed | closed => simp [hphase, Session.Phase.name]

/-- What can be asked of a connection changes exactly if its session is replaced. -/
theorem opened_view_iff (c : Connection) : c.opened.view = c.view ↔ c.isAccumulating = true := by
  constructor
  · intro hview
    cases hphase : c.isAccumulating with
    | true => rfl
    | false =>
        refine absurd ?_ (view_phase_of_not_accumulating hphase)
        rw [← hview, opened_of_not_accumulating hphase]
        rfl
  · intro hphase
    rw [opened_of_accumulating hphase]

/-! ## Commits that tell sessions apart -/

section Commits

variable [ExpressionCompiler] (e : Engine σ) {c : Connection} (state : σ)
variable (hopen : c.closed = false) (hmode : c.autoCommit = false)

include hopen hmode

/-- A commit without a session answers with the empty result and changes nothing. -/
theorem perform_commit_of_none (hsession : c.session = none) :
    Run.perform (step e.traced) c .commit state =
      ⟨c, .commit, state, .ok (.result .empty), [], c⟩ := by
  simp [Run.perform, step, commit, hopen, hmode, hsession, Except.map]

/-- A commit of a finished session is refused and changes nothing. -/
theorem perform_commit_of_finished {s : Session} (hsession : c.session = some s)
    (hphase : s.isAccumulating = false) :
    Run.perform (step e.traced) c .commit state =
      ⟨c, .commit, state, .error Session.tooLate, [], c⟩ := by
  have hcommit := commit_of_session e.traced (state, []) hopen hmode hsession
  have hlate : s.commit e.traced (state, []) = (.error Session.tooLate, s, (state, [])) := by
    simp [Session.commit, hphase]
  have hsame : { c with session := some s } = c := by rw [← hsession]
  rw [hlate, hsame] at hcommit
  simp [Run.perform, step, hcommit, Except.map]

/-- A commit of an empty batch finishes the session without asking the engine. -/
theorem perform_commit_of_started {settings : TransactionSettings}
    (hsession : c.session = some (Session.start settings)) :
    Run.perform (step e.traced) c .commit state =
      ⟨c, .commit, state, .ok (.result .empty), [],
        { c with session := some ((Session.start settings).finish .empty) }⟩ := by
  have hcommit := commit_of_session e.traced (state, []) hopen hmode hsession
  have hempty : (Session.start settings).commit e.traced (state, []) =
      (.ok .empty, (Session.start settings).finish .empty, (state, [])) := rfl
  rw [hempty] at hcommit
  simp [Run.perform, step, hcommit, Except.map]

/-- A session without commands can be committed once. -/
theorem answers_commits_of_started {settings : TransactionSettings}
    (hsession : c.session = some (Session.start settings)) :
    answers e [(.commit, state), (.commit, state)] c =
      [.ok (.result .empty), .error Session.tooLate] := by
  have hfirst := perform_commit_of_started e state hopen hmode hsession
  have hsecond := perform_commit_of_finished e
    (c := { c with session := some ((Session.start settings).finish .empty) })
    state hopen hmode rfl rfl
  rw [answers_cons, hfirst, answers_cons, hsecond]
  rfl

/-- Without a session that accepts commands, a second commit does what the first one did. -/
theorem answers_commits_of_not_accumulating (h : c.isAccumulating = false) :
    answers e [(.commit, state), (.commit, state)] c ≠
      [.ok (.result .empty), .error Session.tooLate] := by
  cases hsession : c.session with
  | none =>
      have hperform := perform_commit_of_none e state hopen hmode hsession
      simp [answers_cons, hperform]
  | some s =>
      rw [isAccumulating_of_some hsession] at h
      simp [answers_cons, perform_commit_of_finished e state hopen hmode hsession h]

include state in
/-- Every run is answered alike before and after opening exactly if the connection accumulates. -/
theorem opened_answers_iff :
    (∀ operations, answers e operations c.opened = answers e operations c) ↔
      c.isAccumulating = true := by
  constructor
  · intro hanswers
    cases hphase : c.isAccumulating with
    | true => rfl
    | false =>
        refine absurd ?_ (answers_commits_of_not_accumulating e state hopen hmode hphase)
        rw [← hanswers, opened_of_not_accumulating hphase]
        exact answers_commits_of_started e state hopen hmode rfl
  · intro hphase operations
    rw [opened_of_accumulating hphase]

end Commits

/-! ## Rejections -/

section Rejections

variable [ExpressionCompiler]

/-- A rejected command was submitted to an open connection in manual mode, and all it did was to
open a session. -/
theorem Transition.rejected {e : Engine σ} {c after : Connection} {state : σ}
    {command text : String} {calls : List Call}
    (h : Transition e c state (.execute command) (.error (.rejectedCommand text)) calls after) :
    c.closed = false ∧ c.autoCommit = false ∧ calls = [] ∧ after = c.opened := by
  generalize hanswer : (Except.error (.rejectedCommand text) : Except Error Answer) = answer at h
  cases h with
  | refuse | ignore | queue => exact nomatch hanswer
  | run =>
      exfalso
      cases hrun : (e.run command state).1 with
      | ok result =>
          rw [hrun] at hanswer
          exact nomatch hanswer
      | error error =>
          rw [hrun] at hanswer
          obtain rfl : Error.rejectedCommand text = error := Except.error.inj hanswer
          exact e.run_ne_rejected command text state hrun
  | reject _ hopen _ hmode => exact ⟨hopen, hmode, rfl, rfl⟩

/-- A rejected command answers with itself and leaves the opened connection. -/
theorem perform_rejected (e : Engine σ) {c : Connection} (command : String) (state : σ)
    (hopen : c.closed = false) (hmode : c.autoCommit = false)
    (hblank : Text.isBlankText command = false) (hclass : Command.classify command = .reject) :
    Run.perform (step e.traced) c (.execute command) state =
      ⟨c, .execute command, state, .error (.rejectedCommand (Text.trimmed command)), [],
        c.opened⟩ := by
  have happend := Session.append_reject c.openSession_isAccumulating hblank hclass
  simp [Run.perform, step, execute, hopen, hblank, hmode, enqueue, happend, Except.map, opened]

/-- What a rejection does to a connection. -/
structure Rejection (e : Engine σ) (event : Event σ) : Prop where
  calls : event.calls = []
  pendingCommands : event.after.pendingCommands = event.before.pendingCommands
  /-- A session that accepts commands is kept. -/
  kept : event.before.isAccumulating = true → event.after = event.before
  /-- In place of any other, or of none, the connection holds a new one. -/
  replaced : event.before.isAccumulating = false → event.after =
    { event.before with session := some (Session.start event.before.settings.transaction) }
  /-- What a caller can ask stays the same exactly if the held session accepts commands, -/
  view_iff : event.after.view = event.before.view ↔ event.before.isAccumulating = true
  /-- and so do the answers of all later operations. -/
  answers_iff : (∀ operations, answers e operations event.after =
    answers e operations event.before) ↔ event.before.isAccumulating = true

/-- Whatever was done with a new connection before, this is what the rejection of a command does
to it. -/
theorem rejection (e : Engine σ) (settings : Settings) (config : Config)
    (operations : List (Operation × σ)) (command text : String) (state : σ)
    (h : (Run.perform (step e.traced) (final e operations (start settings config))
      (.execute command) state).answer = .error (.rejectedCommand text)) :
    Rejection e (Run.perform (step e.traced) (final e operations (start settings config))
      (.execute command) state) := by
  have htransition := transition_perform e (final e operations (start settings config))
    (.execute command) state
  rw [h] at htransition
  obtain ⟨hopen, hmode, hcalls, hafter⟩ := htransition.rejected
  constructor
  case calls => exact hcalls
  case pendingCommands =>
    rw [hafter]
    exact opened_pendingCommands _
  case kept =>
    intro hphase
    rw [hafter]
    exact opened_of_accumulating hphase
  case replaced =>
    intro hphase
    rw [hafter]
    exact opened_of_not_accumulating hphase
  case view_iff =>
    rw [hafter]
    exact opened_view_iff _
  case answers_iff =>
    rw [hafter]
    exact opened_answers_iff e state hopen hmode

/-- A connection in manual mode that has committed an insertion. -/
def committedInsertion (d : Database) : Connection :=
  final (Memory.engine "demo") [(.execute "INSERT INTO T SET a = 1", d), (.commit, d)]
    (start { connection := { autoCommit := false } } { driver := "docql", name := "demo" })

end Rejections

/-- After a committed insertion, the rejected class takes the result with it. -/
theorem committedInsertion_answer :
    let _ := ExpressionCompiler.unlimited
    let d := (Database.empty.runCommand "CREATE CLASS T").2
    (Run.perform (step (Memory.engine "demo").traced) (committedInsertion d)
      (.execute "CREATE CLASS X") d).answer = .error (.rejectedCommand "CREATE CLASS X") := by
  intro _ d
  obtain ⟨hopen, hmode⟩ :
      (committedInsertion d).closed = false ∧ (committedInsertion d).autoCommit = false := by
    decide +kernel
  have hperform := perform_rejected (Memory.engine "demo") "CREATE CLASS X" d hopen hmode
    (by decide +kernel) (by decide +kernel)
  have htrimmed : Text.trimmed "CREATE CLASS X" = "CREATE CLASS X" := by decide +kernel
  rw [hperform, htrimmed]

/-- On such a connection, the rejection of a class replaces the session. -/
theorem class_rejection :
    let _ := ExpressionCompiler.unlimited
    let d := (Database.empty.runCommand "CREATE CLASS T").2
    let event := Run.perform (step (Memory.engine "demo").traced) (committedInsertion d)
      (.execute "CREATE CLASS X") d
    event.answer = .error (.rejectedCommand "CREATE CLASS X") ∧
      event.before.isAccumulating = false ∧ Rejection (Memory.engine "demo") event := by
  intro _ d event
  refine ⟨committedInsertion_answer, by decide +kernel, ?_⟩
  exact rejection (Memory.engine "demo") { connection := { autoCommit := false } }
    { driver := "docql", name := "demo" }
    [(.execute "INSERT INTO T SET a = 1", d), (.commit, d)] "CREATE CLASS X" "CREATE CLASS X" d
    committedInsertion_answer

/-- It loses the result of the commit, and another commit succeeds. -/
theorem class_rejection_noticed :
    let _ := ExpressionCompiler.unlimited
    let d := (Database.empty.runCommand "CREATE CLASS T").2
    let c := committedInsertion d
    let event := Run.perform (step (Memory.engine "demo").traced) c (.execute "CREATE CLASS X") d
    event.answer = .error (.rejectedCommand "CREATE CLASS X") ∧ c.autoCommit = false ∧
      (c.view.phase = some "committed" ∧ c.view.result.isSome = true) ∧
      (event.after.view.phase = some "accumulating" ∧ event.after.view.result.isSome = false) ∧
      (answers (Memory.engine "demo") [(.commit, d)] c).map Except.isOk = [false] ∧
      (answers (Memory.engine "demo") [(.commit, d)] event.after).map Except.isOk = [true] :=
  ⟨committedInsertion_answer, by decide +kernel⟩

end Connection

end DocumentClient
