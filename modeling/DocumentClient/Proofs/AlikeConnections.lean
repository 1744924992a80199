import DocumentClient.Proofs.CommitAtomicity

/-!
# Connections that differ in their sessions

`Alike` relates connections with the same settings that are in the same mode, whatever sessions
they hold. All operations but a commit do the same to the engine on both and get the same answer
(`Alike.step_eq`), and so does a commit, its answer apart, if the same commands are pending
(`Alike.commit_eq`). The connections stay alike (`Alike.step`), also if only one of them queues a
command (`Alike.skip`).
-/

namespace DocumentClient

/-- A commit does the same to a session whether the engine keeps a log or not. -/
theorem Session.commit_traced_eq {σ : Type} (e : Engine σ) (s : Session) (state : σ) :
    (s.commit e.traced (state, [])).1 = (s.commit e state).1 ∧
      (s.commit e.traced (state, [])).2.1 = (s.commit e state).2.1 := by
  cases hphase : s.isAccumulating with
  | false => simp [commit, hphase]
  | true =>
      by_cases hempty : s.batch.commands = []
      · simp [commit, hphase, Batch.isEmpty, hempty]
      · have htraced : e.traced.runScript s.settings.language s.script (state, []) =
            ((e.runScript s.settings.language s.script state).1,
              (e.runScript s.settings.language s.script state).2,
              [.script s.settings.language s.script]) := rfl
        rcases hreply : e.runScript s.settings.language s.script state with ⟨error | raw, next⟩
        · rw [hreply] at htraced
          rw [commit_error hphase hempty htraced, commit_error hphase hempty hreply]
          exact ⟨rfl, rfl⟩
        · rw [hreply] at htraced
          rw [commit_ok hphase hempty htraced, commit_ok hphase hempty hreply,
            Engine.traced_resultOf]
          exact ⟨rfl, rfl⟩

/-- Sessions that accept commands give the same answer to a command. -/
theorem Session.append_answer {s t : Session} (hs : s.isAccumulating = true)
    (ht : t.isAccumulating = true) (command : String) :
    (s.append command).1 = (t.append command).1 := by
  simp only [append, hs, ht, Bool.not_true, Bool.false_eq_true, if_false]
  split
  · rfl
  · split
    · rfl
    · simp only [Batch.push]
      split <;> rfl

/-- A session that accepts commands is in the phase in which it does. -/
theorem Session.phase_of_isAccumulating {s : Session} (h : s.isAccumulating = true) :
    s.phase = .accumulating :=
  beq_iff_eq.mp h

/-- Sessions that accept commands and have no result yet are the same if they have the same
settings and commands. -/
theorem Session.eq_of_isAccumulating {s t : Session} (hs : s.isAccumulating = true)
    (ht : t.isAccumulating = true) (hsresult : s.ResultAgrees) (htresult : t.ResultAgrees)
    (hsettings : s.settings = t.settings) (hcommands : s.batch.commands = t.batch.commands) :
    s = t := by
  have hphase : s.phase = t.phase :=
    (phase_of_isAccumulating hs).trans (phase_of_isAccumulating ht).symm
  have hresult : s.result = t.result :=
    (hsresult.result_eq_none hs).trans (htresult.result_eq_none ht).symm
  obtain ⟨settings, ⟨commands⟩, phase, result⟩ := s
  obtain ⟨otherSettings, ⟨otherCommands⟩, otherPhase, otherResult⟩ := t
  cases hsettings
  cases hcommands
  cases hphase
  cases hresult
  rfl

namespace Connection

variable {σ : Type} [ExpressionCompiler]

/-! ## Steps -/

/-- An operation does the same to a connection whether the engine keeps a log or not. -/
theorem perform_step (e : Engine σ) (operation : Operation) (c : Connection) (state : σ) :
    (Run.perform (step e.traced) c operation state).answer = (step e operation c state).1 ∧
      (Run.perform (step e.traced) c operation state).after = (step e operation c state).2.1 := by
  cases operation with
  | execute command =>
      simp only [Run.perform, step, execute, Engine.traced_run]
      repeat' split
      all_goals simp
  | query command =>
      simp only [Run.perform, step, query, Engine.traced_run]
      repeat' split
      all_goals simp
  | setAutoCommit | rollback | closeBatch => exact ⟨rfl, rfl⟩
  | commit =>
      simp only [Run.perform, step, commit]
      repeat' split
      all_goals simp [Session.commit_traced_eq]
  | close =>
      simp only [Run.perform, step, close, Engine.traced, Call.logged]
      repeat' split
      all_goals simp
  | list listing =>
      simp only [Run.perform, step, Engine.list, Engine.traced, Call.logged]
      split
      · rcases hreply : e.readCatalog state with ⟨_ | _, next⟩ <;> simp [hreply]
      · simp

/-- An operation on an engine without a log is one of the transitions, too. -/
theorem transition_step (e : Engine σ) (operation : Operation) (c : Connection) (state : σ) :
    ∃ calls, Transition e c state operation (step e operation c state).1 calls
      (step e operation c state).2.1 := by
  obtain ⟨hanswer, hafter⟩ := perform_step e operation c state
  rw [← hanswer, ← hafter]
  exact ⟨_, transition_perform e c operation state⟩

/-- The mode of a connection after an operation. -/
def modeAfter (c : Connection) : Operation → Bool
  | .setAutoCommit enabled => if c.closed then c.autoCommit else enabled
  | _ => c.autoCommit

/-- Whether a connection is closed after an operation. -/
def closedAfter (c : Connection) : Operation → Bool
  | .close => true
  | _ => c.closed

section Transitions

variable {e : Engine σ} {c after : Connection} {state : σ}
variable {operation : Operation} {answer : Except Error Answer} {calls : List Call}

/-- The mode after an operation depends on the connection and the operation alone. -/
theorem Transition.autoCommit_eq (h : Transition e c state operation answer calls after) :
    after.autoCommit = c.modeAfter operation := by
  cases h with
  | refuse operation hclosed => cases operation <;> simp [modeAfter, hclosed]
  | setAutoCommit enabled hopen => simp [modeAfter, hopen]
  | _ => rfl

/-- So does whether the connection is closed. -/
theorem Transition.closed_eq (h : Transition e c state operation answer calls after) :
    after.closed = c.closedAfter operation := by
  cases h with
  | refuse operation hclosed => cases operation <;> simp [closedAfter, hclosed]
  | closeAgain hclosed => exact hclosed
  | _ => rfl

end Transitions

/-! ## Connections that differ in their sessions -/

/-- Two connections with the same settings that are in the same mode. Their sessions may differ. -/
structure Alike (settings : Settings) (c d : Connection) : Prop where
  left : c.WellFormed settings
  right : d.WellFormed settings
  autoCommit : d.autoCommit = c.autoCommit
  closed : d.closed = c.closed

omit [ExpressionCompiler] in
/-- A connection in use has no session to release. -/
theorem WellFormed.closeBatch_eq {settings : Settings} {c : Connection}
    (hc : c.WellFormed settings) : c.closeBatch = (false, c) := by
  cases hsession : c.session with
  | none => simp [closeBatch, hsession]
  | some s =>
      have hmode : c.autoCommit = false := by
        refine Bool.eq_false_iff.mpr fun hauto => ?_
        cases hsession.symm.trans (hc.automatic hauto)
      have hclose : s.close c.autoCommit = (false, s) := by simp [Session.close, hmode]
      have hsame : { c with session := some s } = c := by rw [← hsession]
      simp only [closeBatch, hsession, hclose, hsame]

section Alike

variable {settings : Settings} {c d : Connection} (h : Alike settings c d)
variable (e : Engine σ) (operation : Operation) (state : σ)

include h

/-- All operations do the same to them, sessions apart. -/
theorem Alike.step :
    Alike settings (step e operation c state).2.1 (step e operation d state).2.1 := by
  obtain ⟨_, hc⟩ := transition_step e operation c state
  obtain ⟨_, hd⟩ := transition_step e operation d state
  refine ⟨hc.wellFormed h.left, hd.wellFormed h.right, ?_, ?_⟩
  · rw [hc.autoCommit_eq, hd.autoCommit_eq]
    cases operation <;> simp [modeAfter, h.autoCommit, h.closed]
  · rw [hc.closed_eq, hd.closed_eq]
    cases operation <;> simp [closedAfter, h.closed]

omit [ExpressionCompiler] in
/-- A command gets the same answer, whichever session it goes to. -/
theorem Alike.execute_eq (command : String) :
    (d.execute e command state).1 = (c.execute e command state).1 ∧
      (d.execute e command state).2.2 = (c.execute e command state).2.2 := by
  have hanswer := Session.append_answer d.openSession_isAccumulating c.openSession_isAccumulating
    command
  simp only [execute, enqueue, h.autoCommit, h.closed, hanswer]
  repeat' split
  all_goals simp

/-- All operations but a commit get the same answer and do the same to the engine. -/
theorem Alike.step_eq {operation : Operation} (hoperation : operation ≠ .commit) :
    (Connection.step e operation d state).1 = (Connection.step e operation c state).1 ∧
      (Connection.step e operation d state).2.2 = (Connection.step e operation c state).2.2 := by
  cases operation with
  | commit => exact absurd rfl hoperation
  | execute command =>
      obtain ⟨hanswer, hstate⟩ := h.execute_eq e state command
      exact ⟨congrArg (Except.map Answer.statement) hanswer, hstate⟩
  | closeBatch =>
      simp [Connection.step, h.left.closeBatch_eq, h.right.closeBatch_eq]
  | query | setAutoCommit | rollback | close =>
      simp only [Connection.step, query, setAutoCommit, rollback, close, h.closed]
      repeat' split
      all_goals simp
  | list => exact ⟨rfl, rfl⟩

omit [ExpressionCompiler] in
/-- So does a commit that finds the same pending commands on both. -/
theorem Alike.commit_eq (hpending : d.pendingCommands = c.pendingCommands) :
    (d.commit e state).2.2 = (c.commit e state).2.2 := by
  by_cases hnone : c.pendingCommands = []
  · rw [commit_idle e state hnone, commit_idle e state (hpending.trans hnone)]
  · obtain ⟨hopen, hmode, s, hsession, hphase, hcommands, hsettings⟩ :=
      h.left.session_of_pending hnone
    obtain ⟨hotherOpen, hotherMode, t, hother, hotherPhase, hotherCommands, hotherSettings⟩ :=
      h.right.session_of_pending (hpending ▸ hnone)
    -- Pending commands are held in a session that accepts commands, and there is but one such.
    have hsame : t = s := by
      refine Session.eq_of_isAccumulating hotherPhase hphase
        (h.right.session_result t hother) (h.left.session_result s hsession) ?_ ?_
      · rw [hotherSettings, hsettings]
      · rw [hotherCommands, hcommands, hpending]
    rw [commit_of_session e state hopen hmode hsession,
      commit_of_session e state hotherOpen hotherMode hother, hsame]

/-- So all operations do the same to the engine. -/
theorem Alike.step_state
    (hcommit : operation = .commit → d.pendingCommands = c.pendingCommands) :
    (Connection.step e operation d state).2.2 = (Connection.step e operation c state).2.2 := by
  by_cases hoperation : operation = .commit
  · subst hoperation
    exact h.commit_eq e state (hcommit rfl)
  · exact (h.step_eq e state hoperation).2

end Alike

/-! ## Pending commands -/

/-- Whether an answer says that a command was queued. -/
def Operation.queues : Operation → Except Error Answer → Bool
  | .execute _, .ok (.statement .queued) => true
  | _, _ => false

omit [ExpressionCompiler] in
/-- Whether an operation queued a command can be seen from its answer. -/
theorem queued_eq_nil_iff (event : Event σ) :
    queued event = [] ↔ event.request.queues event.answer = false := by
  unfold queued
  split
  · next command hrequest hanswer => simp [Operation.queues, hrequest, hanswer]
  · simp [Operation.queues]

/-- Whether an operation gives up the open transaction. -/
def discards : Operation → Bool
  | .rollback | .setAutoCommit true | .close => true
  | _ => false

omit [ExpressionCompiler] in
/-- To give up a transaction is to end it. -/
theorem endsBatch_of_discards {operation : Operation} (h : discards operation = true) :
    endsBatch operation = true := by
  unfold discards at h
  split at h
  · rfl
  · rfl
  · rfl
  · exact nomatch h

section Pending

variable {settings : Settings} {c d : Connection} {operation : Operation}

/-- The pending commands after an operation depend on those before it and on its answer. -/
theorem WellFormed.pendingCommands_step (hc : c.WellFormed settings) (e : Engine σ)
    (operation : Operation) (state : σ) :
    ∃ calls, (step e operation c state).2.1.pendingCommands =
      extend c.pendingCommands ⟨c, operation, state, (step e operation c state).1, calls,
        (step e operation c state).2.1⟩ := by
  obtain ⟨calls, htransition⟩ := transition_step e operation c state
  exact ⟨calls, htransition.pendingCommands_eq hc⟩

/-- Nothing is pending after the end of a transaction. -/
theorem WellFormed.pendingCommands_of_ends (hc : c.WellFormed settings) (e : Engine σ) (state : σ)
    (h : endsBatch operation = true) : (step e operation c state).2.1.pendingCommands = [] := by
  obtain ⟨calls, hpending⟩ := hc.pendingCommands_step e operation state
  rw [hpending, extend, if_pos h]

/-- An operation that queues nothing leaves nothing pending where nothing was pending. -/
theorem WellFormed.pendingCommands_of_not_queues (hc : c.WellFormed settings) (e : Engine σ)
    (state : σ) (hnone : c.pendingCommands = [])
    (h : operation.queues (step e operation c state).1 = false) :
    (step e operation c state).2.1.pendingCommands = [] := by
  obtain ⟨calls, hpending⟩ := hc.pendingCommands_step e operation state
  rw [hpending, extend, hnone]
  split
  · rfl
  · rw [List.nil_append, queued_eq_nil_iff]
    exact h

/-- The same commands stay pending on both connections. -/
theorem Alike.pendingCommands_step (h : Alike settings c d)
    (hpending : d.pendingCommands = c.pendingCommands) (e : Engine σ) (operation : Operation)
    (state : σ) : (Connection.step e operation d state).2.1.pendingCommands =
      (Connection.step e operation c state).2.1.pendingCommands := by
  cases hends : endsBatch operation with
  | true =>
      rw [h.left.pendingCommands_of_ends e state hends,
        h.right.pendingCommands_of_ends e state hends]
  | false =>
      -- This is no commit, so that the answers agree on whether something is queued.
      have hoperation : operation ≠ .commit := by
        rintro rfl
        exact nomatch hends
      obtain ⟨_, hleft⟩ := h.left.pendingCommands_step e operation state
      obtain ⟨_, hright⟩ := h.right.pendingCommands_step e operation state
      rw [hleft, hright, hpending, (h.step_eq e state hoperation).1]
      rfl

/-- A command is queued on an open connection in manual mode, without a call of the engine. -/
theorem step_of_queues (e : Engine σ) (state : σ)
    (h : operation.queues (step e operation c state).1 = true) :
    (∃ command, operation = .execute command) ∧ (step e operation c state).2.2 = state := by
  obtain ⟨calls, htransition⟩ := transition_step e operation c state
  have hqueued : queued ⟨c, operation, state, (step e operation c state).1, calls,
      (step e operation c state).2.1⟩ ≠ [] := by
    rw [Ne, queued_eq_nil_iff, h]
    exact Bool.noConfusion
  obtain ⟨command, hcommand⟩ := List.exists_mem_of_ne_nil _ hqueued
  obtain ⟨rfl, hopen, hmode, hblank, -⟩ := (htransition.queued_iff command).mp hcommand
  refine ⟨⟨command, rfl⟩, ?_⟩
  simp [step, execute, hopen, hmode, hblank]

/-- A connection that has queued a command is like one that has not. -/
theorem Alike.skip (h : Alike settings c d) (e : Engine σ) (state : σ)
    (hqueues : operation.queues (Connection.step e operation c state).1 = true) :
    Alike settings (Connection.step e operation c state).2.1 d := by
  obtain ⟨⟨command, rfl⟩, -⟩ := step_of_queues e state hqueues
  obtain ⟨_, htransition⟩ := transition_step e (.execute command) c state
  exact ⟨htransition.wellFormed h.left, h.right, h.autoCommit.trans htransition.autoCommit_eq.symm,
    h.closed.trans htransition.closed_eq.symm⟩

end Pending

end Connection

end DocumentClient
