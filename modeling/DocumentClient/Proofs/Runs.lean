import DocumentClient.Engine.Rows

/-!
# Runs of the clients of an engine

A session and a connection are clients of an engine: each carries out requests by a step
function. `events` is what can be seen of a run: for each request its answer, the calls that
reached the engine, and the client before and after it. The state in which a request finds the
engine is given with the request, because others may have used the engine in between; a run
that hands the state on from request to request is a special case.

`events_split` takes a run apart at any event. What each step keeps, whole runs keep:
`final_invariant` for an invariant, `visited_pairwise` for a relation between a client and all
its later forms.
-/

namespace DocumentClient

/-- The calls of an engine that turn a raw result into rows. -/
def RawResult.rowCalls : RawResult → List Call
  | .link rid => [.load rid]
  | _ => []

/-- Whether a call submits a script. -/
def Call.isScript : Call → Bool
  | .script _ _ => true
  | _ => false

/-- The calls that submit a script and turn what comes back into rows. -/
def Engine.scriptCalls {σ : Type} (e : Engine σ) (language text : String) (state : σ) :
    List Call :=
  .script language text ::
    match (e.runScript language text state).1 with
    | .ok raw => raw.rowCalls
    | .error _ => []

/-- Calls that fetch rows are no scripts. -/
theorem RawResult.isScript_of_mem_rowCalls {raw : RawResult} {call : Call}
    (h : call ∈ raw.rowCalls) : call.isScript = false := by
  cases raw <;> simp_all [rowCalls, Call.isScript]

/-- No script is among the calls that fetch rows. -/
theorem RawResult.filter_rowCalls (raw : RawResult) : raw.rowCalls.filter Call.isScript = [] :=
  List.filter_eq_nil_iff.mpr fun _ h =>
    Bool.eq_false_iff.mp (RawResult.isScript_of_mem_rowCalls h)

/-- Only one script is among the calls that submit it. -/
theorem Engine.filter_scriptCalls {σ : Type} (e : Engine σ) (language text : String)
    (state : σ) :
    (e.scriptCalls language text state).filter Call.isScript = [.script language text] := by
  rw [scriptCalls, List.filter_cons_of_pos rfl]
  split
  · rw [RawResult.filter_rowCalls]
  · rfl

/-- A script makes one call of its kind, with its own language and text. -/
theorem Engine.script_mem_scriptCalls {σ : Type} {e : Engine σ} {language text : String}
    {state : σ} {language' text' : String}
    (h : Call.script language' text' ∈ e.scriptCalls language text state) :
    language' = language ∧ text' = text := by
  have hfilter : Call.script language' text' ∈
      (e.scriptCalls language text state).filter Call.isScript := List.mem_filter.mpr ⟨h, rfl⟩
  rw [filter_scriptCalls, List.mem_singleton] at hfilter
  exact Call.script.inj hfilter

/-- Making a table of a raw result logs just the calls for its rows. -/
theorem Engine.traced_resultOf {σ : Type} (e : Engine σ) (raw : RawResult) (state : σ)
    (log : List Call) :
    e.traced.resultOf raw (state, log) =
      ((e.resultOf raw state).1, (e.resultOf raw state).2, log ++ raw.rowCalls) := by
  cases raw with
  | link rid =>
      rcases hreply : e.loadRecord rid state with ⟨_ | _ | _, next⟩ <;>
        simp [resultOf, rowsOf, traced, Call.logged, hreply, RawResult.rowCalls,
          RawResult.affected]
  | _ => simp [resultOf, rowsOf, RawResult.rowCalls]

/-- The calls that run a command and turn what comes back into rows. -/
def Engine.commandCalls {σ : Type} (e : Engine σ) (text : String) (state : σ) : List Call :=
  .command text ::
    match (e.runCommand text state).1 with
    | .ok raw => raw.rowCalls
    | .error _ => []

/-- A command makes no call of a script. -/
theorem Engine.filter_commandCalls {σ : Type} (e : Engine σ) (text : String) (state : σ) :
    (e.commandCalls text state).filter Call.isScript = [] := by
  rw [commandCalls, List.filter_cons_of_neg Bool.false_ne_true]
  split
  · exact RawResult.filter_rowCalls _
  · rfl

/-- Running a command logs just its calls. -/
theorem Engine.traced_run {σ : Type} (e : Engine σ) (text : String) (state : σ)
    (log : List Call) :
    e.traced.run text (state, log) =
      ((e.run text state).1, (e.run text state).2, log ++ e.commandCalls text state) := by
  have hcall : e.traced.runCommand text (state, log) =
      ((e.runCommand text state).1, (e.runCommand text state).2, log ++ [.command text]) := rfl
  rcases hreply : e.runCommand text state with ⟨error | raw, next⟩
  · simp [run, hcall, hreply, commandCalls]
  · simp [run, hcall, hreply, commandCalls, traced_resultOf]

/-- What can be seen of one request. -/
structure Event (κ ρ α σ : Type) where
  before : κ
  request : ρ
  /-- The state in which the request found the engine. -/
  state : σ
  answer : α
  /-- The calls of the engine that the request made, in order. -/
  calls : List Call
  after : κ

namespace Run

variable {κ ρ α σ : Type}

/-- How a client carries out a request on an engine that keeps a log. -/
abbrev Step (κ ρ α σ : Type) :=
  ρ → κ → σ × List Call → α × κ × (σ × List Call)

/-- The event of one request. -/
def perform (step : Step κ ρ α σ) (client : κ) (request : ρ) (state : σ) : Event κ ρ α σ :=
  let (answer, after, _, calls) := step request client (state, [])
  { before := client, request, state, answer, calls, after }

/-- The events of requests one after another, each with the state in which it finds the engine. -/
def events (step : Step κ ρ α σ) : List (ρ × σ) → κ → List (Event κ ρ α σ)
  | [], _ => []
  | (request, state) :: requests, client =>
    let event := perform step client request state
    event :: events step requests event.after

/-- The client after requests. -/
def final (step : Step κ ρ α σ) : List (ρ × σ) → κ → κ
  | [], client => client
  | (request, state) :: requests, client =>
    final step requests (perform step client request state).after

/-- All forms that a client takes in a run, the first one included. -/
def visited (step : Step κ ρ α σ) (requests : List (ρ × σ)) (client : κ) : List κ :=
  client :: (events step requests client).map (·.after)

variable {step : Step κ ρ α σ}

/-- An event of a run is the event of a request to the client that the requests before it left,
and the run goes on with the client that it leaves. -/
theorem events_split {requests : List (ρ × σ)} {client : κ}
    {earlier later : List (Event κ ρ α σ)} {event : Event κ ρ α σ}
    (h : events step requests client = earlier ++ event :: later) :
    ∃ before request state after, requests = before ++ (request, state) :: after ∧
      earlier = events step before client ∧
      event = perform step (final step before client) request state ∧
      later = events step after event.after := by
  induction requests generalizing client earlier with
  | nil => simp [events] at h
  | cons first requests ih =>
      obtain ⟨request, state⟩ := first
      cases earlier with
      | nil =>
          obtain ⟨hevent, hlater⟩ := List.cons.inj h
          exact ⟨[], request, state, requests, rfl, rfl, hevent.symm, by rw [← hevent, ← hlater]⟩
      | cons head earlier =>
          obtain ⟨hhead, hrest⟩ := List.cons.inj h
          obtain ⟨before, r, s, after, hrequests, hearlier, hevent, hlater⟩ := ih hrest
          refine ⟨(request, state) :: before, r, s, after, by rw [hrequests]; rfl, ?_, hevent,
            hlater⟩
          rw [hearlier, ← hhead]
          rfl

/-- An invariant of every step holds of the client at the end of a run. -/
theorem final_invariant (Inv : κ → Prop)
    (hstep : ∀ client request state, Inv client → Inv (perform step client request state).after)
    (requests : List (ρ × σ)) {client : κ} (h : Inv client) :
    Inv (final step requests client) := by
  induction requests generalizing client with
  | nil => exact h
  | cons first requests ih => exact ih (hstep client first.1 first.2 h)

/-- Every event of a run is the event of a request to a client that has the invariant. -/
theorem event_invariant (Inv : κ → Prop)
    (hstep : ∀ client request state, Inv client → Inv (perform step client request state).after)
    {requests : List (ρ × σ)} {client : κ} (h : Inv client) {event : Event κ ρ α σ}
    (hevent : event ∈ events step requests client) :
    ∃ c request state, Inv c ∧ event = perform step c request state := by
  obtain ⟨earlier, later, hsplit⟩ := List.append_of_mem hevent
  obtain ⟨before, request, state, -, -, -, hperform, -⟩ := events_split hsplit
  exact ⟨_, request, state, final_invariant Inv hstep before h, hperform⟩

/-- A relation that holds over each step, and over no step, holds between any two forms that a
client takes in a run. -/
theorem visited_pairwise {R : κ → κ → Prop} (hrefl : ∀ c, R c c)
    (htrans : ∀ a b c, R a b → R b c → R a c)
    (hstep : ∀ client request state, R client (perform step client request state).after)
    (requests : List (ρ × σ)) (client : κ) : (visited step requests client).Pairwise R := by
  have hreach : ∀ (requests : List (ρ × σ)) (client : κ),
      ∀ c ∈ visited step requests client, R client c := by
    intro requests
    induction requests with
    | nil => simpa [visited, events] using hrefl
    | cons first requests ih =>
        intro client c hc
        rcases List.mem_cons.mp hc with rfl | hc
        · exact hrefl c
        · exact htrans _ _ _ (hstep client first.1 first.2) (ih _ c hc)
  induction requests generalizing client with
  | nil => simp [visited, events]
  | cons first requests ih =>
      refine List.pairwise_cons.mpr ⟨fun c hc => ?_, ih _⟩
      exact htrans _ _ _ (hstep client first.1 first.2) (hreach requests _ c hc)

end Run

end DocumentClient
