import DocumentClient.Proofs.AlikeConnections

/-!
# What a closed connection still does

A connection closes its engine at most once, and stays closed. From then on every operation that
needs an open connection fails without a call of the engine. Listings do not ask whether the
connection is closed: those that read the catalog still reach the engine, and they are the only
operations that do (`shutdown`).
-/

namespace DocumentClient

/-- Making rows of a result closes no engine. -/
theorem RawResult.close_not_mem_rowCalls (raw : RawResult) : Call.close ∉ raw.rowCalls := by
  cases raw <;> simp [rowCalls]

/-- Nor does a script. -/
theorem Engine.close_not_mem_scriptCalls {σ : Type} (e : Engine σ) (language text : String)
    (state : σ) : Call.close ∉ e.scriptCalls language text state := by
  unfold scriptCalls
  split <;> simp [RawResult.close_not_mem_rowCalls]

/-- Nor does a command. -/
theorem Engine.close_not_mem_commandCalls {σ : Type} (e : Engine σ) (text : String) (state : σ) :
    Call.close ∉ e.commandCalls text state := by
  unfold commandCalls
  split <;> simp [RawResult.close_not_mem_rowCalls]

namespace Connection

open Memory

variable {σ : Type}

/-- Nor does a listing. -/
theorem close_not_mem_listCalls (listing : Listing) : Call.close ∉ listCalls listing := by
  unfold listCalls
  split <;> simp

/-- Whether an operation is a listing of what the catalog of the engine holds. -/
def Operation.readsCatalog : Operation → Bool
  | .list listing => listing.readsCatalog
  | _ => false

/-- A listing calls the engine exactly if it reads the catalog. -/
theorem listCalls_ne_nil_iff (listing : Listing) :
    listCalls listing ≠ [] ↔ listing.readsCatalog = true := by
  cases h : listing.readsCatalog <;> simp [listCalls, h]

/-! ## Steps -/

/-- What an operation on a closed connection does. -/
structure OnClosed [ExpressionCompiler] (e : Engine σ) (event : Event σ) : Prop where
  unchanged : event.after = event.before
  /-- Everything but a release, another close and a listing fails and calls no engine. -/
  refused : event.request.needsOpen = true →
    event.calls = [] ∧ event.answer = .error (.connection "connection is closed")
  closeBatch : event.request = .closeBatch → event.calls = [] ∧ event.answer = .ok (.flag false)
  close : event.request = .close → event.calls = [] ∧ event.answer = .ok .done
  /-- A listing does what it does on an open connection. -/
  list : ∀ listing, event.request = .list listing → event.calls = listCalls listing ∧
    event.answer = (e.list listing event.state).1.map .result
  /-- Only the listings of the catalog reach the engine. -/
  calls_iff : event.calls ≠ [] ↔ event.request.readsCatalog = true

section Transitions

variable [ExpressionCompiler]
variable {e : Engine σ} {settings : Settings} {c after : Connection} {state : σ}
variable {operation : Operation} {answer : Except Error Answer} {calls : List Call}

/-- Closing the engine takes an open connection, and leaves a closed one. -/
theorem Transition.closes_le (h : Transition e c state operation answer calls after) :
    calls.count .close + (!after.closed).toNat ≤ (!c.closed).toNat := by
  have hnone : ∀ {calls : List Call} (n : Nat), Call.close ∉ calls →
      calls.count .close + n ≤ n := by
    intro calls n hmem
    have hzero : calls.count .close = 0 := List.count_eq_zero.mpr hmem
    omega
  cases h with
  | run command => exact hnone _ (e.close_not_mem_commandCalls command state)
  | query command => exact hnone _ (e.close_not_mem_commandCalls command state)
  | list listing => exact hnone _ (close_not_mem_listCalls listing)
  | commit s after answer calls _ _ _ hcommit =>
      refine hnone _ fun hmem => ?_
      rw [hcommit.calls_eq (List.ne_nil_of_mem hmem)] at hmem
      exact e.close_not_mem_scriptCalls _ _ state hmem
  | close hopen => simp [hopen]
  | _ => exact hnone _ List.not_mem_nil

/-- What an operation does if the connection is closed, operation by operation. -/
theorem Transition.onClosed (h : Transition e c state operation answer calls after)
    (hc : c.WellFormed settings) (hclosed : c.closed = true) :
    OnClosed e ⟨c, operation, state, answer, calls, after⟩ := by
  have hopen : ∀ {p : Prop}, c.closed = false → p := fun hfalse =>
    absurd (hfalse.symm.trans hclosed) Bool.false_ne_true
  cases h with
  | refuse operation _ hneeds =>
      cases operation with
      | closeBatch | close | list => exact absurd hneeds Bool.false_ne_true
      | _ => constructor <;> simp [Operation.readsCatalog, isClosedError]
  | release s hsession =>
      rw [hc.closed hclosed] at hsession
      cases hsession
  | keep | closeAgain => constructor <;> simp [Operation.needsOpen, Operation.readsCatalog]
  | list listing =>
      constructor
      case list =>
        rintro listing ⟨⟩
        exact ⟨rfl, rfl⟩
      case calls_iff => exact listCalls_ne_nil_iff listing
      all_goals simp [Operation.needsOpen]
  | ignore _ hfalse | run _ hfalse | reject _ hfalse | queue _ hfalse | blankQuery _ hfalse
  | query _ hfalse | setAutoCommit _ hfalse | commitNothing hfalse | commit _ _ _ _ hfalse
  | rollback hfalse | close hfalse => exact hopen hfalse

end Transitions

/-! ## Runs -/

section Runs

variable [ExpressionCompiler]

/-- A run closes the engine at most once, and never that of a closed connection. -/
theorem closes_le (e : Engine σ) (operations : List (Operation × σ)) (c : Connection) :
    ((events e operations c).flatMap (·.calls)).count .close ≤ (!c.closed).toNat := by
  induction operations generalizing c with
  | nil => exact Nat.zero_le _
  | cons first operations ih =>
      obtain ⟨operation, state⟩ := first
      -- An open connection stands for the one close that it may still make.
      have hstep := (transition_perform e c operation state).closes_le
      have hrest := ih (Run.perform (step e.traced) c operation state).after
      rw [events_cons, List.flatMap_cons, List.count_append]
      omega

/-- Every operation after a close finds the connection closed. -/
theorem onClosed_of_split {e : Engine σ} {settings : Settings} {config : Config}
    {operations : List (Operation × σ)} {earlier later : List (Event σ)} {closing event : Event σ}
    (h : events e operations (start settings config) = earlier ++ closing :: later)
    (hclose : closing.request = .close) (hevent : event ∈ later) : OnClosed e event := by
  obtain ⟨before, operation, state, after, -, -, hclosing, hlater⟩ := Run.events_split h
  have hc := wellFormed_final e before (wellFormed_start settings config)
  have htransition := transition_perform e (final e before (start settings config)) operation state
  have hstart : closing.after.WellFormed settings ∧ closing.after.closed = true := by
    rw [hclosing] at hclose ⊢
    refine ⟨htransition.wellFormed hc, htransition.closed_eq.trans ?_⟩
    rw [show operation = .close from hclose]
    rfl
  rw [hlater] at hevent
  obtain ⟨c, operation, state, hc, rfl⟩ := Run.event_invariant
    (fun c => c.WellFormed settings ∧ c.closed = true)
    (fun c operation state hc => by
      have htransition := transition_perform e c operation state
      refine ⟨htransition.wellFormed hc.1, htransition.closed_eq.trans ?_⟩
      cases operation with
      | close => rfl
      | _ => exact hc.2)
    hstart hevent
  exact (transition_perform e c operation state).onClosed hc.1 hc.2

/-- What holds of the events of a new connection once it is closed. -/
structure Shutdown (e : Engine σ) (events : List (Event σ)) : Prop where
  /-- The engine is closed at most once, whether it closes without fail or not. -/
  one_close : (events.flatMap (·.calls)).count .close ≤ 1
  onClosed : ∀ earlier closing later, events = earlier ++ closing :: later →
    closing.request = .close → ∀ event ∈ later, OnClosed e event

/-- The operations on a new connection, in any number and order and whatever the engine answers,
close the engine at most once, and after a close only listings of the catalog reach it. -/
theorem shutdown (e : Engine σ) (settings : Settings) (config : Config)
    (operations : List (Operation × σ)) :
    Shutdown e (events e operations (start settings config)) where
  one_close := closes_le e operations (start settings config)
  onClosed _ _ _ h hclose _ hevent := onClosed_of_split h hclose hevent

end Runs

/-- A listing of the tables reaches the engine of a closed connection and succeeds. -/
theorem tables_after_close :
    let _ := ExpressionCompiler.unlimited
    let d := (Database.empty.runCommand "CREATE CLASS T").2
    let later := events (Memory.engine "demo")
      [(.close, d), (.list (.tables none none), d), (.query "SELECT FROM T", d)]
      (start {} { driver := "docql", name := "demo" })
    later.map (·.calls) = [[.close], [.catalog], []] ∧
      later.map (·.answer.isOk) = [true, true, false] := by
  decide +kernel

end Connection

end DocumentClient
