import DocumentClient.Proofs.ConnectionSteps

/-!
# What becomes of queued commands

Every queued command of a connection is accounted for: it was submitted in a script, it was
discarded while it was pending, or it is pending still. `Transition.pendingCommands_eq` and
`Transition.settled_eq` say what an operation does to the pending commands, and
`Transition.balance` follows from the two. `ledger` is the same of whole runs, with nothing lost,
repeated or out of order.
-/

namespace DocumentClient.Connection

variable {σ : Type}

/-- The command that an operation queued, if it did. -/
def queued (event : Event σ) : List String :=
  match event.request, event.answer with
  | .execute command, .ok (.statement .queued) => [command]
  | _, _ => []

/-- The commands that an operation submitted in a script. -/
def submitted (event : Event σ) : List String :=
  if event.calls.filter Call.isScript = [] then [] else event.before.pendingCommands

/-- The pending commands that an operation gave up without a script. -/
def discarded (event : Event σ) : List String :=
  match event.request with
  | .rollback | .setAutoCommit true | .close => event.before.pendingCommands
  | _ => []

/-- Whether an operation ends the open transaction. -/
def endsBatch : Operation → Bool
  | .commit | .rollback | .setAutoCommit true | .close => true
  | _ => false

/-- The open transaction after an operation, given the one before it. -/
def extend (batch : List String) (event : Event σ) : List String :=
  if endsBatch event.request then [] else batch ++ queued event

/-- The commands that were queued since the last transaction ended. -/
def openBatch (events : List (Event σ)) : List String :=
  events.foldl extend []

/-- Without a session nothing is pending. -/
theorem pendingCommands_of_none {c : Connection} (h : c.session = none) :
    c.pendingCommands = [] := by
  rw [pendingCommands, h]

/-- The commands of the held session are pending as long as it accepts more of them. -/
theorem pendingCommands_of_some {c : Connection} {s : Session} (h : c.session = some s) :
    c.pendingCommands = if s.isAccumulating then s.batch.commands else [] := by
  rw [pendingCommands, h]

/-- While it does, they are its commands. -/
theorem pendingCommands_of_accumulating {c : Connection} {s : Session} (h : c.session = some s)
    (hs : s.isAccumulating = true) : c.pendingCommands = s.batch.commands := by
  rw [pendingCommands_of_some h, if_pos hs]

/-- Once it does not, there are none. -/
theorem pendingCommands_of_finished {c : Connection} {s : Session} (h : c.session = some s)
    (hs : s.isAccumulating = false) : c.pendingCommands = [] := by
  rw [pendingCommands_of_some h, hs, if_neg Bool.false_ne_true]

/-- Without a session that accepts commands nothing is pending. -/
theorem pendingCommands_of_not_accumulating {c : Connection} (h : c.isAccumulating = false) :
    c.pendingCommands = [] := by
  cases hsession : c.session with
  | none => exact pendingCommands_of_none hsession
  | some s =>
      rw [isAccumulating, hsession, Option.any_some] at h
      exact pendingCommands_of_finished hsession h

/-- The end of a transaction queues nothing. -/
theorem queued_of_endsBatch {event : Event σ} (h : endsBatch event.request = true) :
    queued event = [] := by
  unfold queued
  split
  · next hrequest _ =>
      rw [hrequest] at h
      exact nomatch h
  · rfl

/-- A listing submits no script. -/
theorem filter_listCalls (listing : Listing) : (listCalls listing).filter Call.isScript = [] := by
  unfold listCalls
  split <;> rfl

/-- What was submitted is a part of what was submitted or discarded. -/
theorem submitted_sublist (events : List (Event σ)) :
    (events.flatMap submitted).Sublist
      (events.flatMap fun event => submitted event ++ discarded event) := by
  induction events with
  | nil => exact List.Sublist.refl []
  | cons event events ih => exact (List.sublist_append_left _ _).append ih

/-- Nothing is pending on a closed connection. -/
theorem WellFormed.pendingCommands_of_closed {settings : Settings} {c : Connection}
    (hc : c.WellFormed settings) (hclosed : c.closed = true) : c.pendingCommands = [] :=
  pendingCommands_of_none (hc.closed hclosed)

/-- Nothing is pending while commands are committed automatically. -/
theorem WellFormed.pendingCommands_of_autoCommit {settings : Settings} {c : Connection}
    (hc : c.WellFormed settings) (hmode : c.autoCommit = true) : c.pendingCommands = [] :=
  pendingCommands_of_none (hc.automatic hmode)

section Transitions

variable [ExpressionCompiler]
variable {e : Engine σ} {settings : Settings} {c after : Connection} {state : σ}
variable {operation : Operation} {answer : Except Error Answer} {calls : List Call}

/-- A command is queued exactly if it is submitted to an open connection in manual mode, is not
blank and does not change the schema. Nothing else that happens queues a command. -/
theorem Transition.queued_iff (h : Transition e c state operation answer calls after)
    (command : String) :
    command ∈ queued ⟨c, operation, state, answer, calls, after⟩ ↔
      operation = .execute command ∧ c.closed = false ∧ c.autoCommit = false ∧
        Text.isBlankText command = false ∧ Command.classify command = .accept := by
  cases h with
  | queue text hopen hblank hmode hclass =>
      rw [queued, List.mem_singleton]
      constructor
      · rintro rfl
        exact ⟨rfl, hopen, hmode, hblank, hclass⟩
      · rintro ⟨hrequest, -⟩
        exact (Operation.execute.inj hrequest).symm
  | run text _ _ hmode =>
      cases hanswer : (e.run text state).1 <;> simp [queued, Except.map, hmode]
  | ignore text _ hblank =>
      refine ⟨fun hqueued => absurd hqueued List.not_mem_nil, ?_⟩
      rintro ⟨hrequest, -, -, hfull, -⟩
      rw [← Operation.execute.inj hrequest, hblank] at hfull
      exact absurd hfull.symm Bool.false_ne_true
  | reject text _ _ _ hclass =>
      refine ⟨fun hqueued => absurd hqueued List.not_mem_nil, ?_⟩
      rintro ⟨hrequest, -, -, -, haccept⟩
      rw [← Operation.execute.inj hrequest, hclass] at haccept
      exact nomatch haccept
  | refuse operation hclosed => cases operation <;> simp [queued, hclosed]
  | _ => simp [queued]

/-- A script is submitted exactly by a commit while commands are pending. -/
theorem Transition.scripts_iff (h : Transition e c state operation answer calls after)
    (hc : c.WellFormed settings) :
    calls.filter Call.isScript ≠ [] ↔ operation = .commit ∧ c.pendingCommands ≠ [] := by
  cases h with
  | run | query => simp [Engine.filter_commandCalls]
  | list listing => simp [filter_listCalls]
  | refuse _ hclosed => simp [hc.pendingCommands_of_closed hclosed]
  | commitNothing _ hnone =>
      have hpending := hnone.elim hc.pendingCommands_of_autoCommit pendingCommands_of_none
      simp [hpending]
  | commit s after answer calls hopen hmode hsession hcommit =>
      have hscripts : calls.filter Call.isScript ≠ [] ↔ calls ≠ [] := by
        constructor
        · rintro hscript rfl
          exact hscript rfl
        · intro hcalls
          rw [hcommit.calls_eq hcalls, Engine.filter_scriptCalls]
          exact List.cons_ne_nil _ _
      rw [hscripts, hcommit.calls_iff, pendingCommands_of_some hsession]
      cases hphase : s.isAccumulating <;> simp
  | _ => simp [Call.isScript]

/-- It is the script of the pending commands. -/
theorem Transition.scripts_eq (h : Transition e c state operation answer calls after)
    (hc : c.WellFormed settings) (hscript : calls.filter Call.isScript ≠ []) :
    calls.filter Call.isScript = [.script settings.transaction.language
      ((ScriptFrame.ofSettings settings.transaction).script c.pendingCommands)] := by
  obtain ⟨rfl, hpending⟩ := (h.scripts_iff hc).mp hscript
  cases h with
  | commit s after answer calls hopen hmode hsession hcommit =>
      have hcalls : calls ≠ [] := by
        rintro rfl
        exact hscript rfl
      have hphase := (hcommit.calls_iff.mp hcalls).2.1
      rw [hcommit.calls_eq hcalls, Engine.filter_scriptCalls, Session.script,
        pendingCommands_of_accumulating hsession hphase, hc.session_settings s hsession]
  | refuse | commitNothing => exact absurd rfl hscript

/-- The pending commands make up the open transaction. -/
theorem Transition.pendingCommands_eq (h : Transition e c state operation answer calls after)
    (hc : c.WellFormed settings) :
    after.pendingCommands =
      extend c.pendingCommands ⟨c, operation, state, answer, calls, after⟩ := by
  cases h with
  | refuse operation hclosed =>
      rw [hc.pendingCommands_of_closed hclosed, extend]
      cases operation <;> simp [queued]
  | closeAgain hclosed => exact hc.pendingCommands_of_closed hclosed
  | ignore | blankQuery | query | keep | list => simp [extend, endsBatch, queued]
  | run command =>
      cases hanswer : (e.run command state).1 <;> simp [extend, endsBatch, queued, Except.map]
  | reject =>
      rw [pendingCommands_of_accumulating rfl c.openSession_isAccumulating, openSession_commands]
      simp [extend, endsBatch, queued]
  | queue command =>
      rw [pendingCommands_of_accumulating (s := c.openSession.withCommand command) rfl
        c.openSession_isAccumulating, Session.withCommand, openSession_commands]
      rfl
  | setAutoCommit enabled =>
      cases enabled with
      | true => exact pendingCommands_of_none rfl
      | false => simp [extend, endsBatch, queued, pendingCommands]
  | commitNothing _ hnone =>
      exact hnone.elim hc.pendingCommands_of_autoCommit pendingCommands_of_none
  | commit _ _ _ _ _ _ _ hcommit => exact pendingCommands_of_finished rfl hcommit.commit_finishes
  | rollback =>
      cases hphase : c.isAccumulating with
      | true => exact pendingCommands_of_none rfl
      | false => exact pendingCommands_of_not_accumulating hphase
  | release s hsession hphase =>
      have hnone := pendingCommands_of_finished hsession
        (Session.isAccumulating_of_committed hphase)
      rw [hnone]
      exact pendingCommands_of_none rfl
  | close => exact pendingCommands_of_none rfl

/-- The end of a transaction submits or discards all of it; nothing else does. -/
theorem Transition.settled_eq (h : Transition e c state operation answer calls after)
    (hc : c.WellFormed settings) :
    submitted ⟨c, operation, state, answer, calls, after⟩ ++
      discarded ⟨c, operation, state, answer, calls, after⟩ =
      if endsBatch operation then c.pendingCommands else [] := by
  by_cases hscript : calls.filter Call.isScript = []
  · have hcommit : operation = .commit → c.pendingCommands = [] := by
      intro hoperation
      exact Decidable.byContradiction fun hpending =>
        (h.scripts_iff hc).mpr ⟨hoperation, hpending⟩ hscript
    rw [submitted, if_pos hscript, List.nil_append]
    -- A commit discards nothing, so that without a script nothing was pending.
    cases operation with
    | commit => exact (hcommit rfl).symm
    | setAutoCommit enabled => cases enabled <;> rfl
    | _ => rfl
  · obtain ⟨rfl, -⟩ := (h.scripts_iff hc).mp hscript
    rw [submitted, if_neg hscript]
    exact List.append_nil _

/-- Before and after an operation, the same commands are accounted for. -/
theorem Transition.balance (h : Transition e c state operation answer calls after)
    (hc : c.WellFormed settings) :
    c.pendingCommands ++ queued ⟨c, operation, state, answer, calls, after⟩ =
      submitted ⟨c, operation, state, answer, calls, after⟩ ++
        discarded ⟨c, operation, state, answer, calls, after⟩ ++ after.pendingCommands := by
  rw [h.settled_eq hc, h.pendingCommands_eq hc, extend]
  cases hends : endsBatch operation with
  | true => rw [queued_of_endsBatch hends]; simp
  | false => simp

end Transitions

/-! ## Runs -/

variable [ExpressionCompiler]

/-- The commands pending after a run are those queued since the last transaction ended. -/
theorem pendingCommands_final (e : Engine σ) {settings : Settings}
    (operations : List (Operation × σ)) {c : Connection} (hc : c.WellFormed settings) :
    (final e operations c).pendingCommands =
      (events e operations c).foldl extend c.pendingCommands := by
  induction operations generalizing c with
  | nil => rfl
  | cons first operations ih =>
      obtain ⟨operation, state⟩ := first
      have htransition := transition_perform e c operation state
      rw [events_cons, List.foldl_cons]
      refine (ih (htransition.wellFormed hc)).trans ?_
      rw [htransition.pendingCommands_eq hc]
      rfl

/-- Over a run, the same commands are accounted for at its start and at its end. -/
theorem balance_run (e : Engine σ) {settings : Settings} (operations : List (Operation × σ))
    {c : Connection} (hc : c.WellFormed settings) :
    c.pendingCommands ++ (events e operations c).flatMap queued =
      (events e operations c).flatMap (fun event => submitted event ++ discarded event) ++
        (final e operations c).pendingCommands := by
  induction operations generalizing c with
  | nil => exact List.append_nil _
  | cons first operations ih =>
      obtain ⟨operation, state⟩ := first
      have htransition := transition_perform e c operation state
      have hrest := ih (htransition.wellFormed hc)
      have hstep : c.pendingCommands ++ queued (Run.perform (step e.traced) c operation state) =
          submitted (Run.perform (step e.traced) c operation state) ++
            discarded (Run.perform (step e.traced) c operation state) ++
            (Run.perform (step e.traced) c operation state).after.pendingCommands :=
        htransition.balance hc
      rw [events_cons, List.flatMap_cons, List.flatMap_cons, ← List.append_assoc, hstep,
        List.append_assoc, hrest, ← List.append_assoc]
      rfl

/-- A new connection has nothing pending. -/
theorem balance_start (e : Engine σ) (settings : Settings) (config : Config)
    (operations : List (Operation × σ)) :
    (events e operations (start settings config)).flatMap queued =
      (events e operations (start settings config)).flatMap
        (fun event => submitted event ++ discarded event) ++
        (final e operations (start settings config)).pendingCommands :=
  balance_run e operations (wellFormed_start settings config)

/-- What is pending was queued before. -/
theorem queued_of_pending {e : Engine σ} {settings : Settings} {config : Config}
    {operations : List (Operation × σ)} {command : String}
    (h : command ∈ (final e operations (start settings config)).pendingCommands) :
    ∃ event ∈ events e operations (start settings config), command ∈ queued event := by
  apply List.mem_flatMap.mp
  rw [balance_start]
  exact List.mem_append_right _ h

/-- What holds of the events of a new connection with these settings, and of the commands that
are pending after them. -/
structure Ledger (settings : Settings) (events : List (Event σ)) (pending : List String) :
    Prop where
  /-- Only commits submit scripts, one each, made of the commands that were pending. -/
  scripts : ∀ event ∈ events, event.calls.filter Call.isScript ≠ [] →
    event.request = .commit ∧ submitted event ≠ [] ∧
      event.calls.filter Call.isScript = [.script settings.transaction.language
        ((ScriptFrame.ofSettings settings.transaction).script (submitted event))]
  /-- Submitted, discarded and pending commands are together, in this order of time, the queued
  ones. -/
  balance : events.flatMap queued =
    events.flatMap (fun event => submitted event ++ discarded event) ++ pending
  /-- No queued command is submitted twice, and none out of order. -/
  in_order : (events.flatMap submitted).Sublist (events.flatMap queued)
  /-- The queued commands are those submitted to an open connection in manual mode that are not
  blank and do not change the schema. -/
  queued_iff : ∀ event ∈ events, ∀ command, command ∈ queued event ↔
    event.request = .execute command ∧ event.before.closed = false ∧
      event.before.autoCommit = false ∧ Text.isBlankText command = false ∧
      Command.classify command = .accept

/-- The operations on a new connection, in any number and order and whatever the engine answers,
lose, repeat and reorder no queued command. -/
theorem ledger (e : Engine σ) (settings : Settings) (config : Config)
    (operations : List (Operation × σ)) :
    Ledger settings (events e operations (start settings config))
      (final e operations (start settings config)).pendingCommands := by
  constructor
  case balance => exact balance_start e settings config operations
  case in_order =>
    rw [balance_start]
    exact (submitted_sublist _).trans (List.sublist_append_left _ _)
  case scripts =>
    intro event hevent hscript
    obtain ⟨hc, htransition⟩ := transition_of_mem hevent
    obtain ⟨hrequest, hne⟩ := (htransition.scripts_iff hc).mp hscript
    rw [submitted, if_neg hscript]
    exact ⟨hrequest, hne, htransition.scripts_eq hc hscript⟩
  case queued_iff =>
    intro event hevent
    exact (transition_of_mem hevent).2.queued_iff

end DocumentClient.Connection
