import DocumentClient.Proofs.AlikeConnections

/-!
# The session that a connection holds

A session stops accepting commands only by its own commit, and keeps the phase and the result that
the commit gave it for as long as it is held (`finished_since`). `heldSession_final` puts together
what holds of a connection after any operations: when it holds a session at all, what its phase says
of the commit and of the result, and that there is never one for `closeBatch` to release.
-/

namespace DocumentClient

/-! ## What a commit makes of its session -/

namespace Session.Transition

variable {σ : Type} {e : Engine σ} {s after : Session} {state : σ}
variable {answer : Except Error Answer} {calls : List Call}

/-- A commit changes nothing but the phase and the result. -/
theorem before_commit (h : Transition e s state .commit answer calls after)
    (hs : s.isAccumulating = true) (hresult : s.result = none) :
    s = { after with phase := .accumulating, result := none } := by
  have hphase := phase_of_isAccumulating hs
  cases h <;> simp [finish, ← hphase, ← hresult]

/-- A session that its commit leaves committed keeps what the commit returned. -/
theorem answer_of_committed (h : Transition e s state .commit answer calls after)
    (hs : s.isAccumulating = true) (hafter : after.phase = .committed) :
    ∃ result, after.result = some result ∧ answer = .ok (.result result) := by
  cases h with
  | lateCommit hphase => exact absurd (hphase.symm.trans hs) Bool.false_ne_true
  | commitEmpty | submit => exact ⟨_, rfl, rfl⟩
  | fail => exact nomatch hafter

/-- A session that accepts no commands is not changed by a commit. -/
theorem after_eq_of_finished (h : Transition e s state .commit answer calls after)
    (hs : s.isAccumulating = false) : after = s := by
  cases h with
  | lateCommit => rfl
  | commitEmpty hphase | fail _ _ hphase | submit _ _ hphase =>
      exact absurd (hs.symm.trans hphase) Bool.false_ne_true

/-- Only a script that the engine refused closes a session. -/
theorem refused_of_closed (h : Transition e s state .commit answer calls after)
    (hs : s.isAccumulating = true) (hafter : after.phase = .closed) :
    calls = [.script s.settings.language s.script] ∧
      ∃ error, (e.runScript s.settings.language s.script state).1 = .error error ∧
        answer = .error error.toError := by
  cases h with
  | lateCommit hphase => exact absurd (hphase.symm.trans hs) Bool.false_ne_true
  | commitEmpty | submit => exact nomatch hafter
  | fail error next _ _ hreply => exact ⟨rfl, error, by rw [hreply], rfl⟩

end Session.Transition

/-- The answer of a session to a commit determines that of its connection. -/
theorem Session.Answer.eq_of_map_result {first second : Except Error QueryResult}
    (h : first.map Session.Answer.result = second.map Session.Answer.result) : first = second := by
  cases first <;> cases second <;> simp_all [Except.map]

namespace Connection

variable {σ : Type} [ExpressionCompiler]

/-- The event is the commit that left a session as it is. -/
structure OwnCommit (e : Engine σ) (event : Event σ) (s : Session) : Prop where
  request : event.request = .commit
  before : event.before.session = some { s with phase := .accumulating, result := none }
  after : event.after.session = some s
  /-- If the session is committed, its result is what the commit returned. -/
  committed : s.phase = .committed →
    ∃ result, s.result = some result ∧ event.answer = .ok (.result result)
  /-- If it is closed, the engine was given its script and refused it. -/
  refused : s.phase = .closed → event.calls = [.script s.settings.language s.script] ∧
    ∃ error, (e.runScript s.settings.language s.script event.state).1 = .error error ∧
      event.answer = .error error.toError

/-- A connection holds a session that accepts no commands only if it held it before or this is
the commit of the session. -/
theorem Transition.ownCommit {e : Engine σ} {c after : Connection} {state : σ}
    {operation : Operation} {answer : Except Error Answer} {calls : List Call} {s : Session}
    (h : Transition e c state operation answer calls after)
    (hresult : ∀ t, c.session = some t → t.ResultAgrees) (hafter : after.session = some s)
    (hs : s.isAccumulating = false) :
    c.session = some s ∨ OwnCommit e ⟨c, operation, state, answer, calls, after⟩ s := by
  cases h with
  | refuse | ignore | run | blankQuery | query | commitNothing | keep | closeAgain | list =>
      exact .inl hafter
  | reject | queue =>
      -- The session that the next command goes to accepts commands.
      obtain rfl := Option.some.inj hafter
      exact absurd (hs.symm.trans c.openSession_isAccumulating) Bool.false_ne_true
  | setAutoCommit enabled =>
      cases enabled with
      | true => exact nomatch hafter
      | false => exact .inl hafter
  | rollback =>
      cases hphase : c.isAccumulating with
      | true => simp [hphase] at hafter
      | false => exact .inl (by simpa [hphase] using hafter)
  | release | close => exact nomatch hafter
  | commit t after answer calls hopen hmode hsession hcommit =>
      obtain rfl := Option.some.inj hafter
      cases ht : t.isAccumulating with
      | true =>
          right
          have hbefore := hcommit.before_commit ht ((hresult t hsession).result_eq_none ht)
          constructor
          case request => rfl
          case before => exact hsession.trans (congrArg some hbefore)
          case after => rfl
          case committed =>
            intro hphase
            obtain ⟨result, hkept, hanswer⟩ := hcommit.answer_of_committed ht hphase
            replace hanswer : _ = Except.map Session.Answer.result (.ok result) := hanswer
            refine ⟨result, hkept, ?_⟩
            rw [Session.Answer.eq_of_map_result hanswer]
            rfl
          case refused =>
            intro hclosed
            rw [hbefore] at hcommit
            obtain ⟨hcalls, error, hreply, hanswer⟩ := hcommit.refused_of_closed rfl hclosed
            refine ⟨hcalls, error, hreply, ?_⟩
            replace hanswer : _ = Except.map Session.Answer.result (.error error.toError) := hanswer
            rw [Session.Answer.eq_of_map_result hanswer]
            rfl
      | false => exact .inl (hcommit.after_eq_of_finished ht ▸ hsession)

/-- A session that accepts no commands at the end of a run was held already at the start, or it
is held since its own commit. -/
theorem finished_since (e : Engine σ) {settings : Settings} (operations : List (Operation × σ))
    {c : Connection} (hc : c.WellFormed settings) {s : Session}
    (h : (final e operations c).session = some s) (hs : s.isAccumulating = false) :
    (c.session = some s ∧ ∀ event ∈ events e operations c, event.after.session = some s) ∨
      ∃ earlier event later, events e operations c = earlier ++ event :: later ∧
        OwnCommit e event s ∧ ∀ other ∈ later, other.after.session = some s := by
  induction operations generalizing c with
  | nil => exact .inl ⟨h, fun _ hmem => absurd hmem List.not_mem_nil⟩
  | cons first operations ih =>
      obtain ⟨operation, state⟩ := first
      have htransition := transition_perform e c operation state
      rw [events_cons]
      rcases ih (htransition.wellFormed hc) h with
        ⟨hafter, hkept⟩ | ⟨earlier, event, later, hsplit, hcommit, hkept⟩
      · -- Held all through the rest of the run, so this operation decides.
        rcases htransition.ownCommit hc.session_result hafter hs with hbefore | hcommit
        · left
          refine ⟨hbefore, fun event hevent => ?_⟩
          rcases List.mem_cons.mp hevent with rfl | hevent
          · exact hafter
          · exact hkept event hevent
        · exact .inr ⟨[], _, _, rfl, hcommit, hkept⟩
      · right
        exact ⟨_ :: earlier, event, later, by rw [hsplit]; rfl, hcommit, hkept⟩

/-- What holds of a connection after these events, and of the session it then holds. -/
structure HeldSession (e : Engine σ) (events : List (Event σ)) (c : Connection) : Prop where
  automatic : c.autoCommit = true → c.session = none
  closed : c.closed = true → c.session = none
  /-- There is a result exactly while the session is committed. -/
  result_iff : c.transactionResult?.isSome = true ↔ c.sessionPhase? = some .committed
  /-- Commands are pending only in manual mode, in a session that accepts more of them. -/
  pending : c.pendingCommands ≠ [] →
    c.autoCommit = false ∧ c.sessionPhase? = some .accumulating
  /-- A session that accepts no commands got its phase and its result from its own commit and has
  been held ever since. It is closed only if the engine refused its script. -/
  own_commit : ∀ s, c.session = some s → s.isAccumulating = false →
    ∃ earlier event later, events = earlier ++ event :: later ∧ OwnCommit e event s ∧
      ∀ other ∈ later, other.after.session = some s
  /-- There is nothing to release: `closeBatch` says so, calls no engine and changes nothing. -/
  closeBatch : ∀ state, Run.perform (step e.traced) c .closeBatch state =
    ⟨c, .closeBatch, state, .ok (.flag false), [], c⟩

/-- After any operations on a new connection, in any number and order and whatever the engine
answers, its flags, its session and the history agree. -/
theorem heldSession_final (e : Engine σ) (settings : Settings) (config : Config)
    (operations : List (Operation × σ)) :
    HeldSession e (events e operations (start settings config))
      (final e operations (start settings config)) := by
  have hc := wellFormed_final e operations (wellFormed_start settings config)
  constructor
  case automatic => exact hc.automatic
  case closed => exact hc.closed
  case result_iff =>
    rw [transactionResult?, sessionPhase?]
    cases hsession : (final e operations (start settings config)).session with
    | none => simp
    | some s =>
        -- Phase and result of the held session agree, after every operation.
        have hagrees := hc.session_result s hsession
        rw [Session.ResultAgrees, Session.isCommitted, beq_iff_eq] at hagrees
        simpa using hagrees
  case pending =>
    intro hpending
    obtain ⟨-, hmode, s, hsession, hphase, -, -⟩ := hc.session_of_pending hpending
    refine ⟨hmode, ?_⟩
    rw [sessionPhase?, hsession, Option.map_some, Session.phase_of_isAccumulating hphase]
  case own_commit =>
    intro s hsession hphase
    -- A new connection holds no session.
    rcases finished_since e operations (wellFormed_start settings config) hsession hphase with
      ⟨hstart, -⟩ | hcommit
    · cases hstart
    · exact hcommit
  case closeBatch =>
    intro state
    simp [Run.perform, step, hc.closeBatch_eq]

end Connection

end DocumentClient
