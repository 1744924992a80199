import DocumentClient.Batch.Session
import DocumentClient.Proofs.Runs

/-!
# The lifecycle of a session

`Transition` lists everything that a call of a session can do, with its answer, the calls that
reach the engine and the session after it, and `perform_eq` says that nothing else happens. What
holds of whole runs is then read off case by case. The main statement is `lifecycle`: over any
run of a new session, whatever the engine answers, at most one script is submitted, phases only
move forward, and what a phase has fixed stays as it is.
-/

namespace DocumentClient.Session

variable {σ : Type}

/-- What can be seen of a call of a session. -/
abbrev Event (σ : Type) := DocumentClient.Event Session Action (Except Error Answer) σ

/-- The events of calls of a session, each with the state in which it finds the engine. -/
abbrev events (e : Engine σ) (calls : List (Action × σ)) (s : Session) : List (Event σ) :=
  Run.events (step e.traced) calls s

/-- The events of a run are the first one and those of the session it leaves. -/
theorem events_cons (e : Engine σ) (action : Action) (state : σ) (calls : List (Action × σ))
    (s : Session) :
    events e ((action, state) :: calls) s =
      Run.perform (step e.traced) s action state ::
        events e calls (Run.perform (step e.traced) s action state).after :=
  rfl

/-- The session with one more command. -/
def withCommand (s : Session) (command : String) : Session :=
  { s with batch := ⟨s.batch.commands ++ [command]⟩ }

/-- `Transition e s state action answer calls after` says that the action gives the answer,
makes the calls of the engine, and leaves the session `after`. -/
inductive Transition (e : Engine σ) (s : Session) (state : σ) :
    Action → Except Error Answer → List Call → Session → Prop where
  | lateAppend (command : String) (hphase : s.isAccumulating = false) :
      Transition e s state (.append command) (.error tooLate) [] s
  | blank (command : String) (hphase : s.isAccumulating = true)
      (hblank : Text.isBlankText command = true) :
      Transition e s state (.append command) (.ok (.flag false)) [] s
  | reject (command : String) (hphase : s.isAccumulating = true)
      (hblank : Text.isBlankText command = false) (hclass : Command.classify command = .reject) :
      Transition e s state (.append command)
        (.error (.rejectedCommand (Text.trimmed command))) [] s
  | accept (command : String) (hphase : s.isAccumulating = true)
      (hblank : Text.isBlankText command = false) (hclass : Command.classify command = .accept) :
      Transition e s state (.append command) (.ok (.flag true)) [] (s.withCommand command)
  | lateCommit (hphase : s.isAccumulating = false) :
      Transition e s state .commit (.error tooLate) [] s
  | commitEmpty (hphase : s.isAccumulating = true) (hempty : s.batch.commands = []) :
      Transition e s state .commit (.ok (.result .empty)) [] (s.finish .empty)
  | fail (error : EngineError) (next : σ) (hphase : s.isAccumulating = true)
      (hne : s.batch.commands ≠ [])
      (hreply : e.runScript s.settings.language s.script state = (.error error, next)) :
      Transition e s state .commit (.error error.toError)
        [.script s.settings.language s.script] { s with phase := .closed }
  | submit (raw : RawResult) (next : σ) (hphase : s.isAccumulating = true)
      (hne : s.batch.commands ≠ [])
      (hreply : e.runScript s.settings.language s.script state = (.ok raw, next)) :
      Transition e s state .commit (.ok (.result (e.resultOf raw next).1))
        (.script s.settings.language s.script :: raw.rowCalls)
        (s.finish (e.resultOf raw next).1)
  | release (hphase : s.isCommitted = true) :
      Transition e s state (.close true) (.ok (.flag true)) []
        { s with phase := .closed, result := none }
  | keep (autoCommit : Bool) (hkeep : (s.isCommitted && autoCommit) = false) :
      Transition e s state (.close autoCommit) (.ok (.flag false)) [] s
  | abandon : Transition e s state .abandon (.ok .done) [] s.abandon

/-- An accepted command is queued. -/
theorem append_accept {s : Session} {command : String} (hphase : s.isAccumulating = true)
    (hblank : Text.isBlankText command = false) (hclass : Command.classify command = .accept) :
    s.append command = (.ok true, s.withCommand command) := by
  simp [append, hphase, hblank, Command.ensureTransactional, hclass, Batch.push, withCommand]

/-- A rejected command is handed back in an error, and the session stays as it was. -/
theorem append_reject {s : Session} {command : String} (hphase : s.isAccumulating = true)
    (hblank : Text.isBlankText command = false) (hclass : Command.classify command = .reject) :
    s.append command = (.error (.rejectedCommand (Text.trimmed command)), s) := by
  simp [append, hphase, hblank, Command.ensureTransactional, hclass]

/-- A commit whose script succeeds finishes the session with the result. -/
theorem commit_ok {e : Engine σ} {s : Session} {state next : σ} {raw : RawResult}
    (hphase : s.isAccumulating = true) (hne : s.batch.commands ≠ [])
    (hreply : e.runScript s.settings.language s.script state = (.ok raw, next)) :
    s.commit e state = (.ok (e.resultOf raw next).1, s.finish (e.resultOf raw next).1,
      (e.resultOf raw next).2) := by
  have hexecute : e.execute s.settings.language s.script state = (.ok raw, next) := by
    rw [Engine.execute, hreply]
    rfl
  simp [commit, hphase, Batch.isEmpty, hne, hexecute]

/-- A commit whose script fails closes the session. -/
theorem commit_error {e : Engine σ} {s : Session} {state next : σ} {error : EngineError}
    (hphase : s.isAccumulating = true) (hne : s.batch.commands ≠ [])
    (hreply : e.runScript s.settings.language s.script state = (.error error, next)) :
    s.commit e state = (.error error.toError, { s with phase := .closed }, next) := by
  have hexecute : e.execute s.settings.language s.script state = (.error error.toError, next) := by
    rw [Engine.execute, hreply]
    rfl
  simp [commit, hphase, Batch.isEmpty, hne, hexecute]

/-- A commit is one of the transitions. -/
theorem commit_traced (e : Engine σ) (s : Session) (state : σ) :
    ∃ answer calls after next, s.commit e.traced (state, []) = (answer, after, next, calls) ∧
      Transition e s state .commit (answer.map .result) calls after := by
  cases hphase : s.isAccumulating with
  | false =>
      exact ⟨.error tooLate, [], s, state, by simp [commit, hphase], .lateCommit hphase⟩
  | true =>
      by_cases hempty : s.batch.commands = []
      · exact ⟨.ok .empty, [], _, state, by simp [commit, hphase, Batch.isEmpty, hempty],
          .commitEmpty hphase hempty⟩
      · have htraced : e.traced.runScript s.settings.language s.script (state, []) =
            ((e.runScript s.settings.language s.script state).1,
              (e.runScript s.settings.language s.script state).2,
              [.script s.settings.language s.script]) := rfl
        rcases hreply : e.runScript s.settings.language s.script state with ⟨error | raw, next⟩
        · rw [hreply] at htraced
          exact ⟨.error error.toError, _, _, next, commit_error hphase hempty htraced,
            .fail error next hphase hempty hreply⟩
        · rw [hreply] at htraced
          refine ⟨.ok (e.resultOf raw next).1, _, _, (e.resultOf raw next).2, ?_,
            .submit raw next hphase hempty hreply⟩
          rw [commit_ok hphase hempty htraced, Engine.traced_resultOf]
          rfl

/-- Every call of a session is one of the transitions. -/
theorem perform_eq (e : Engine σ) (s : Session) (action : Action) (state : σ) :
    ∃ answer calls after, Transition e s state action answer calls after ∧
      Run.perform (step e.traced) s action state =
        ⟨s, action, state, answer, calls, after⟩ := by
  cases action with
  | append command =>
      cases hphase : s.isAccumulating with
      | false =>
          exact ⟨_, _, _, .lateAppend command hphase, by
            simp [Run.perform, step, append, hphase, Except.map]⟩
      | true =>
          cases hblank : Text.isBlankText command with
          | true =>
              exact ⟨_, _, _, .blank command hphase hblank, by
                simp [Run.perform, step, append, hphase, hblank, Except.map]⟩
          | false =>
              cases hclass : Command.classify command with
              | accept =>
                  exact ⟨_, _, _, .accept command hphase hblank hclass, by
                    simp [Run.perform, step, append_accept hphase hblank hclass, Except.map]⟩
              | reject =>
                  exact ⟨_, _, _, .reject command hphase hblank hclass, by
                    simp [Run.perform, step, append_reject hphase hblank hclass, Except.map]⟩
  | commit =>
      obtain ⟨answer, calls, after, next, hcommit, htransition⟩ := commit_traced e s state
      exact ⟨_, _, _, htransition, by simp [Run.perform, step, hcommit]⟩
  | close autoCommit =>
      cases hkeep : s.isCommitted && autoCommit with
      | false =>
          exact ⟨_, _, _, .keep autoCommit hkeep, by simp [Run.perform, step, close, hkeep]⟩
      | true =>
          obtain ⟨hphase, rfl⟩ := Bool.and_eq_true_iff.mp hkeep
          exact ⟨_, _, _, .release hphase, by simp [Run.perform, step, close, hphase]⟩
  | abandon => exact ⟨_, _, _, .abandon, rfl⟩

/-- Every action is one of the transitions, whatever the engine answers. -/
theorem transition_perform (e : Engine σ) (s : Session) (action : Action) (state : σ) :
    Transition e s state action (Run.perform (step e.traced) s action state).answer
      (Run.perform (step e.traced) s action state).calls
      (Run.perform (step e.traced) s action state).after := by
  obtain ⟨answer, calls, after, htransition, hperform⟩ := perform_eq e s action state
  rw [hperform]
  exact htransition

/-- Every event of a run is one of the transitions. -/
theorem transition_of_mem {e : Engine σ} {calls : List (Action × σ)} {s : Session}
    {event : Event σ} (h : event ∈ events e calls s) :
    Transition e event.before event.state event.request event.answer event.calls event.after := by
  obtain ⟨c, action, state, -, rfl⟩ :=
    Run.event_invariant (fun _ => True) (fun _ _ _ _ => trivial) trivial h
  exact transition_perform e c action state

/-! ## Commands and phases -/

/-- The commands that an event added to the session. -/
def accepted (event : Event σ) : List String :=
  match event.request, event.answer with
  | .append command, .ok (.flag true) => [command]
  | _, _ => []

/-- How far along a phase is. -/
def Phase.rank : Phase → Nat
  | .accumulating => 0
  | .committed => 1
  | .closed => 2

/-- The first rank is that of accumulating. -/
theorem isAccumulating_iff (s : Session) : s.isAccumulating = true ↔ s.phase.rank = 0 := by
  cases hphase : s.phase <;> simp [isAccumulating, Phase.rank, hphase]

/-- A session no longer accumulates exactly if its rank is positive. -/
theorem isAccumulating_eq_false_iff (s : Session) :
    s.isAccumulating = false ↔ 0 < s.phase.rank := by
  rw [← Bool.not_eq_true, isAccumulating_iff, Nat.pos_iff_ne_zero]

/-- The second rank is that of a committed session. -/
theorem isCommitted_iff (s : Session) : s.isCommitted = true ↔ s.phase.rank = 1 := by
  cases hphase : s.phase <;> simp [isCommitted, Phase.rank, hphase]

/-- A closed session no longer accumulates. -/
theorem isAccumulating_of_closed {s : Session} (h : s.phase = .closed) :
    s.isAccumulating = false := by
  rw [isAccumulating, h]
  rfl

/-- A committed session no longer accumulates. -/
theorem isAccumulating_of_committed {s : Session} (h : s.isCommitted = true) :
    s.isAccumulating = false := by
  rw [isAccumulating_eq_false_iff, (isCommitted_iff s).mp h]
  exact Nat.zero_lt_one

/-- `t` can be a later form of the session `s`. -/
structure Advances (s t : Session) : Prop where
  forward : s.phase.rank ≤ t.phase.rank
  /-- Only an accumulating session gets commands. -/
  commands : s.isAccumulating = false → t.batch = s.batch
  /-- A committed session keeps its result. -/
  result : s.isCommitted = true → t.isCommitted = true → t.result = s.result

/-- A session that stays as it is has not gone back. -/
theorem Advances.refl (s : Session) : Advances s s :=
  ⟨Nat.le_refl _, fun _ => rfl, fun _ _ => rfl⟩

/-- Sessions that advance twice have advanced. -/
theorem Advances.trans {s t u : Session} (hst : Advances s t) (htu : Advances t u) :
    Advances s u := by
  have hforward := hst.forward
  have hforward' := htu.forward
  refine ⟨Nat.le_trans hforward hforward', fun hs => ?_, fun hs hu => ?_⟩
  · have ht : t.isAccumulating = false := by
      rw [isAccumulating_eq_false_iff] at hs ⊢
      omega
    rw [htu.commands ht, hst.commands hs]
  · -- Between two committed forms there are only committed ones.
    have ht : t.isCommitted = true := by
      rw [isCommitted_iff] at hs hu ⊢
      omega
    rw [htu.result ht hu, hst.result hs ht]

/-- An accumulating session has fixed nothing yet. -/
theorem Advances.of_accumulating {s : Session} (hs : s.isAccumulating = true) (t : Session) :
    Advances s t := by
  have hrank := (isAccumulating_iff s).mp hs
  refine ⟨hrank ▸ Nat.zero_le _, fun hfalse => ?_, fun hcommitted => ?_⟩
  · exact absurd (hfalse.symm.trans hs) Bool.false_ne_true
  · rw [isCommitted_iff, hrank] at hcommitted
    exact absurd hcommitted Nat.zero_ne_one

/-- A closed session is a later form of any session with its commands. -/
theorem Advances.of_closed {s t : Session} (ht : t.phase = .closed) (hbatch : t.batch = s.batch) :
    Advances s t := by
  refine ⟨?_, fun _ => hbatch, fun _ hcommitted => ?_⟩
  · rw [ht]
    cases s.phase <;> decide
  · rw [isCommitted, ht] at hcommitted
    cases hcommitted

/-- Abandoning a session advances it: the session is closed, or was so before. -/
theorem Advances.abandon (s : Session) : Advances s s.abandon := by
  rw [Session.abandon]
  split
  · exact .refl s
  · exact .of_closed rfl rfl

/-- There is a result exactly if the session is committed. -/
def ResultAgrees (s : Session) : Prop :=
  s.result.isSome = true ↔ s.isCommitted = true

/-- A session that is finished holds the result it was finished with. -/
theorem resultAgrees_finish (s : Session) (result : QueryResult) :
    (s.finish result).ResultAgrees :=
  iff_of_true rfl rfl

/-- A session without a result agrees with every phase but the committed one. -/
theorem resultAgrees_of_none {s : Session} (hnone : s.result = none)
    (hphase : s.isCommitted = false) : s.ResultAgrees := by
  rw [ResultAgrees, hnone, hphase]
  exact Iff.rfl

/-- An accumulating session has no result, and none comes with its other changes. -/
theorem ResultAgrees.result_eq_none {s : Session} (h : s.ResultAgrees)
    (hphase : s.isAccumulating = true) : s.result = none := by
  have hnot : s.isCommitted ≠ true := by
    intro hcommitted
    rw [isAccumulating_of_committed hcommitted] at hphase
    cases hphase
  exact Option.not_isSome_iff_eq_none.mp (mt h.mp hnot)

/-! ## What every transition does -/

namespace Transition

variable {e : Engine σ} {s after : Session} {state : σ} {action : Action}
variable {answer : Except Error Answer} {calls : List Call}

/-- No transition changes the settings. -/
theorem settings_eq (h : Transition e s state action answer calls after) :
    after.settings = s.settings := by
  cases h with
  | abandon =>
      rw [Session.abandon]
      split <;> rfl
  | _ => rfl

/-- The queue grows by the accepted commands and loses none. -/
theorem commands_eq (h : Transition e s state action answer calls after) :
    after.batch.commands =
      s.batch.commands ++ accepted ⟨s, action, state, answer, calls, after⟩ := by
  cases h with
  | abandon =>
      rw [Session.abandon]
      split <;> simp [accepted]
  | _ => simp [accepted, withCommand, finish]

/-- Only commands that are not blank and do not change the schema are accepted. -/
theorem accepted_spec (h : Transition e s state action answer calls after) {command : String}
    (hcommand : command ∈ accepted ⟨s, action, state, answer, calls, after⟩) :
    Text.isBlankText command = false ∧ Command.classify command = .accept := by
  cases h with
  | accept _ _ hblank hclass =>
      obtain rfl := List.mem_singleton.mp hcommand
      exact ⟨hblank, hclass⟩
  | _ => exact absurd hcommand List.not_mem_nil

/-- No transition goes back to an earlier phase. -/
theorem advances (h : Transition e s state action answer calls after) : Advances s after := by
  cases h with
  | lateAppend | blank | reject | lateCommit | keep => exact .refl s
  | accept _ hphase | commitEmpty hphase => exact .of_accumulating hphase _
  | submit _ _ hphase => exact .of_accumulating hphase _
  | fail | release => exact .of_closed rfl rfl
  | abandon => exact .abandon s

/-- Phase and result are changed together. -/
theorem resultAgrees (h : Transition e s state action answer calls after)
    (hs : s.ResultAgrees) : after.ResultAgrees := by
  cases h with
  | lateAppend | blank | reject | lateCommit | keep => exact hs
  | accept => exact hs
  | commitEmpty | submit => exact resultAgrees_finish s _
  | fail _ _ hphase =>
      -- The result is not touched here: there is none, since the session was accumulating.
      exact resultAgrees_of_none (hs.result_eq_none hphase) rfl
  | release => exact resultAgrees_of_none rfl rfl
  | abandon =>
      rw [Session.abandon]
      split
      · exact hs
      · exact resultAgrees_of_none rfl rfl

/-- A closed session stays closed. -/
theorem closed (h : Transition e s state action answer calls after) (hs : s.phase = .closed) :
    after.phase = .closed := by
  have hlate := isAccumulating_of_closed hs
  cases h with
  | lateAppend | blank | reject | lateCommit | keep => exact hs
  | fail | release => rfl
  | abandon => rw [Session.abandon, if_pos hs, hs]
  | accept _ hphase | commitEmpty hphase =>
      exact absurd (hlate.symm.trans hphase) Bool.false_ne_true
  | submit _ _ hphase => exact absurd (hlate.symm.trans hphase) Bool.false_ne_true

/-- A closed session takes commits and commands for misuse and does not call the engine. -/
theorem misuse (h : Transition e s state action answer calls after) (hs : s.phase = .closed)
    (haction : action = .commit ∨ ∃ command, action = .append command) :
    answer = .error tooLate ∧ calls = [] := by
  have hlate := isAccumulating_of_closed hs
  cases h with
  | lateAppend | lateCommit => exact ⟨rfl, rfl⟩
  | release | keep | abandon => simp at haction
  | blank _ hphase | reject _ hphase | accept _ hphase | commitEmpty hphase =>
      exact absurd (hlate.symm.trans hphase) Bool.false_ne_true
  | fail _ _ hphase | submit _ _ hphase =>
      exact absurd (hlate.symm.trans hphase) Bool.false_ne_true

/-- Only the commit of an accumulating session that has commands calls the engine. -/
theorem calls_iff (h : Transition e s state action answer calls after) :
    calls ≠ [] ↔ action = .commit ∧ s.isAccumulating = true ∧ s.batch.commands ≠ [] := by
  cases h <;> simp [*]

/-- A transition that reaches the engine makes the calls of the session's script. -/
theorem calls_eq (h : Transition e s state action answer calls after) (hcalls : calls ≠ []) :
    calls = e.scriptCalls s.settings.language s.script state := by
  cases h with
  | fail _ _ _ _ hreply => simp [Engine.scriptCalls, hreply]
  | submit _ _ _ _ hreply => simp [Engine.scriptCalls, hreply]
  | _ => exact absurd rfl hcalls

/-- A commit succeeds exactly if the session accumulates and has no commands, or a script that
the engine runs. -/
theorem commit_iff (h : Transition e s state .commit answer calls after) :
    answer.isOk = true ↔ s.isAccumulating = true ∧ (s.batch.commands = [] ∨
      (e.runScript s.settings.language s.script state).1.isOk = true) := by
  cases h <;> simp [Except.isOk, Except.toBool, *]

/-- No session accumulates after a commit. -/
theorem commit_finishes (h : Transition e s state .commit answer calls after) :
    after.isAccumulating = false := by
  cases h with
  | lateCommit hphase => exact hphase
  | commitEmpty | fail | submit => rfl

/-- A script that the engine does not run closes the session. -/
theorem failed_closes (h : Transition e s state action answer calls after) (hcalls : calls ≠ [])
    (hreply : (e.runScript s.settings.language s.script state).1.isOk = false) :
    after.phase = .closed := by
  cases h with
  | fail => rfl
  | submit _ _ _ _ hok =>
      rw [hok] at hreply
      exact absurd hreply.symm Bool.false_ne_true
  | _ => exact absurd rfl hcalls

/-- A script takes the session out of the accumulating phase for good. -/
theorem scripts_le (h : Transition e s state action answer calls after) :
    calls.countP Call.isScript + after.isAccumulating.toNat ≤ s.isAccumulating.toNat := by
  cases h with
  | lateAppend | blank | reject | lateCommit | keep => exact Nat.le_of_eq (Nat.zero_add _)
  | accept => exact Nat.le_of_eq (Nat.zero_add _)
  | commitEmpty | release => exact Nat.zero_le _
  | abandon =>
      rw [Session.abandon]
      split
      · exact Nat.le_of_eq (Nat.zero_add _)
      · exact Nat.zero_le _
  | fail _ _ hphase =>
      rw [hphase]
      exact Nat.le_refl 1
  | submit raw _ hphase =>
      rw [hphase]
      cases raw <;> exact Nat.le_refl 1

end Transition

/-! ## Runs -/

/-- The commands at the end of a run are those at its start and those accepted since. -/
theorem commands_final (e : Engine σ) (calls : List (Action × σ)) (s : Session) :
    (Run.final (step e.traced) calls s).batch.commands =
      s.batch.commands ++ (events e calls s).flatMap accepted := by
  induction calls generalizing s with
  | nil => simp [Run.final, Run.events]
  | cons first calls ih =>
      obtain ⟨action, state⟩ := first
      have hstep := (transition_perform e s action state).commands_eq
      rw [Run.final, ih, hstep, events_cons, List.flatMap_cons, List.append_assoc]
      rfl

/-- No run changes the settings. -/
theorem settings_final (e : Engine σ) (calls : List (Action × σ)) (s : Session) :
    (Run.final (step e.traced) calls s).settings = s.settings :=
  Run.final_invariant (fun c => c.settings = s.settings)
    (fun c action state h => (transition_perform e c action state).settings_eq.trans h) calls rfl

/-- A new session is not committed and has no result. -/
theorem resultAgrees_start (settings : TransactionSettings) : (start settings).ResultAgrees :=
  resultAgrees_of_none rfl rfl

/-- Phase and result agree throughout a run if they agree at its start. -/
theorem resultAgrees_visited (e : Engine σ) (calls : List (Action × σ)) {s : Session}
    (hs : s.ResultAgrees) : ∀ t ∈ s :: (events e calls s).map (·.after), t.ResultAgrees := by
  have hstep : ∀ c action state, c.ResultAgrees →
      (Run.perform (step e.traced) c action state).after.ResultAgrees :=
    fun c action state hc => (transition_perform e c action state).resultAgrees hc
  refine List.forall_mem_cons.mpr ⟨hs, fun t ht => ?_⟩
  obtain ⟨event, hevent, rfl⟩ := List.mem_map.mp ht
  obtain ⟨c, action, state, hc, rfl⟩ := Run.event_invariant ResultAgrees hstep hs hevent
  exact hstep c action state hc

/-- A run submits at most one script, and none once the session accumulates no more. -/
theorem scripts_le (e : Engine σ) (calls : List (Action × σ)) (s : Session) :
    ((events e calls s).flatMap (·.calls)).countP Call.isScript ≤ s.isAccumulating.toNat := by
  induction calls generalizing s with
  | nil => exact Nat.zero_le _
  | cons first calls ih =>
      obtain ⟨action, state⟩ := first
      -- An accumulating session stands for the one script that it may still submit.
      have hstep := (transition_perform e s action state).scripts_le
      have hrest := ih (Run.perform (step e.traced) s action state).after
      rw [events_cons, List.flatMap_cons, List.countP_append]
      omega

/-- Only commands that are not blank and do not change the schema are accepted in a run. -/
theorem accepted_of_mem {e : Engine σ} {calls : List (Action × σ)} {s : Session}
    {command : String} (h : command ∈ (events e calls s).flatMap accepted) :
    Text.isBlankText command = false ∧ Command.classify command = .accept := by
  obtain ⟨event, hevent, hcommand⟩ := List.mem_flatMap.mp h
  exact (transition_of_mem hevent).accepted_spec hcommand

section Events

variable {e : Engine σ} {settings : TransactionSettings} {calls : List (Action × σ)}
variable {earlier later : List (Event σ)} {event : Event σ}

/-- Every event of a run is a transition. -/
theorem transition_of_split (h : events e calls (start settings) = earlier ++ event :: later) :
    Transition e event.before event.state event.request event.answer event.calls event.after :=
  transition_of_mem (h ▸ List.mem_append_right _ List.mem_cons_self)

/-- Before any event of a run the commands of a new session are those accepted so far. -/
theorem commands_of_split (h : events e calls (start settings) = earlier ++ event :: later) :
    event.before.batch.commands = earlier.flatMap accepted := by
  obtain ⟨before, action, state, after, -, rfl, rfl, -⟩ := Run.events_split h
  exact commands_final e before (start settings)

/-- Every event of a run happens under the settings the session was started with. -/
theorem settings_of_split (h : events e calls (start settings) = earlier ++ event :: later) :
    event.before.settings = settings := by
  obtain ⟨before, action, state, after, -, rfl, rfl, -⟩ := Run.events_split h
  exact settings_final e before (start settings)

/-- The script of a session frames the commands that were accepted before, in their order. -/
theorem script_of_split (h : events e calls (start settings) = earlier ++ event :: later) :
    event.before.script =
      (ScriptFrame.ofSettings settings).script (earlier.flatMap accepted) := by
  rw [script, commands_of_split h, settings_of_split h]

/-- What reaches the engine is the script of the commands accepted so far. -/
theorem calls_of_split (h : events e calls (start settings) = earlier ++ event :: later)
    (hcalls : event.calls ≠ []) :
    event.calls = e.scriptCalls settings.language
      ((ScriptFrame.ofSettings settings).script (earlier.flatMap accepted)) event.state := by
  rw [← script_of_split h, ← settings_of_split h]
  exact (transition_of_split h).calls_eq hcalls

/-- After a script that fails, commits and commands are misuse and do not reach the engine. -/
theorem misuse_of_split (h : events e calls (start settings) = earlier ++ event :: later)
    (hclosed : event.after.phase = .closed) {other : Event σ} (hother : other ∈ later)
    (hrequest : other.request = .commit ∨ ∃ command, other.request = .append command) :
    other.answer = .error tooLate ∧ other.calls = [] := by
  obtain ⟨before, action, state, after, -, -, -, rfl⟩ := Run.events_split h
  obtain ⟨c, action, state, hc, rfl⟩ := Run.event_invariant (fun c => c.phase = .closed)
    (fun c action state => (transition_perform e c action state).closed) hclosed hother
  exact (transition_perform e c action state).misuse hc hrequest

end Events

/-! ## The lifecycle -/

/-- What holds of the events of a new session with these settings. -/
structure Lifecycle (e : Engine σ) (settings : TransactionSettings) (events : List (Event σ)) :
    Prop where
  /-- The whole run submits at most one script. -/
  one_script : (events.flatMap (·.calls)).countP Call.isScript ≤ 1
  /-- The engine is called by the commit of an accumulating session that has commands, and by
  nothing else. -/
  calls_iff : ∀ earlier event later, events = earlier ++ event :: later →
    (event.calls ≠ [] ↔ event.request = .commit ∧ event.before.isAccumulating = true ∧
      earlier.flatMap accepted ≠ [])
  /-- What it submits is the script of the commands accepted so far. The only other call loads
  the record of a link that comes back. -/
  calls_eq : ∀ earlier event later, events = earlier ++ event :: later → event.calls ≠ [] →
    event.calls = e.scriptCalls settings.language
      ((ScriptFrame.ofSettings settings).script (earlier.flatMap accepted)) event.state
  /-- Phases only move forward. -/
  forward : (start settings :: events.map (·.after)).Pairwise
    fun s t => s.phase.rank ≤ t.phase.rank
  /-- Once a session accumulates no more, its commands are fixed. -/
  commands_fixed : (start settings :: events.map (·.after)).Pairwise
    fun s t => s.isAccumulating = false → t.batch = s.batch
  /-- There is a result exactly while the session is committed. -/
  result_iff : ∀ s ∈ start settings :: events.map (·.after),
    s.result.isSome = true ↔ s.isCommitted = true
  /-- The result stays the same for as long as the session is committed. -/
  result_fixed : (start settings :: events.map (·.after)).Pairwise
    fun s t => s.isCommitted = true → t.isCommitted = true → t.result = s.result
  /-- A commit succeeds exactly if the session accumulates and has no commands or a script that
  the engine runs; what becomes of a link plays no part. -/
  commit_iff : ∀ earlier event later, events = earlier ++ event :: later →
    event.request = .commit →
    (event.answer.isOk = true ↔ event.before.isAccumulating = true ∧
      (earlier.flatMap accepted = [] ∨
        (e.runScript settings.language
          ((ScriptFrame.ofSettings settings).script (earlier.flatMap accepted))
          event.state).1.isOk = true))
  /-- A script that fails closes the session: later commits and commands are misuse and do not
  reach the engine. -/
  failure_spends : ∀ earlier event later, events = earlier ++ event :: later →
    ∀ language text, Call.script language text ∈ event.calls →
    (e.runScript language text event.state).1.isOk = false →
    event.after.phase = .closed ∧ ∀ other ∈ later,
      (other.request = .commit ∨ ∃ command, other.request = .append command) →
      other.answer = .error (.misuse "session already committed") ∧ other.calls = []

/-- The calls of a new session, in any number and order and whatever the engine answers, follow
its lifecycle. -/
theorem lifecycle (e : Engine σ) (settings : TransactionSettings) (calls : List (Action × σ)) :
    Lifecycle e settings (events e calls (start settings)) := by
  -- Between any two forms of the session, not only from one to the next.
  have hadvances := Run.visited_pairwise Advances.refl (fun _ _ _ => Advances.trans)
    (fun c action state => (transition_perform e c action state).advances) calls (start settings)
  constructor
  case one_script => exact scripts_le e calls (start settings)
  case forward => exact hadvances.imp Advances.forward
  case commands_fixed => exact hadvances.imp Advances.commands
  case result_fixed => exact hadvances.imp Advances.result
  case result_iff => exact resultAgrees_visited e calls (resultAgrees_start settings)
  case calls_iff =>
    intro earlier event later h
    rw [← commands_of_split h]
    exact (transition_of_split h).calls_iff
  case calls_eq =>
    intro earlier event later h hcalls
    exact calls_of_split h hcalls
  case commit_iff =>
    intro earlier event later h hrequest
    rw [← script_of_split h, ← commands_of_split h, ← settings_of_split h]
    exact (hrequest ▸ transition_of_split h).commit_iff
  case failure_spends =>
    intro earlier event later h language text hcall hreply
    have hcalls := List.ne_nil_of_mem hcall
    have hscript := (transition_of_split h).calls_eq hcalls
    obtain ⟨rfl, rfl⟩ := Engine.script_mem_scriptCalls (hscript ▸ hcall)
    have hclosed := (transition_of_split h).failed_closes hcalls hreply
    exact ⟨hclosed, fun other hother hrequest => misuse_of_split h hclosed hother hrequest⟩

end DocumentClient.Session
