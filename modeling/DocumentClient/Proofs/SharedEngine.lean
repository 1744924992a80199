import DocumentClient.Proofs.AlikeConnections
import Mathlib.Logic.Function.Basic

/-!
# Connections that share an engine

Any number of connections use one engine, one operation after another and in any order. `Shared`
holds the connections and the state of the engine, and `Shared.responses` lists what the operations
of a schedule return.

The commands that a connection queues and never submits leave no trace outside of it
(`unsubmitted_invisible`): without the operations that queue them, a schedule leads to the same
database, with the same answers to all other connections and to all queries. The connection may
hold another session then, so that its commits can be answered differently.
-/

namespace DocumentClient

/-- Connections that share an engine, and the state that the engine is in. -/
structure Shared (ι σ : Type) where
  connections : ι → Connection
  state : σ

/-- An operation and the connection that makes it. -/
structure Move (ι : Type) where
  agent : ι
  operation : Connection.Operation
deriving DecidableEq

/-- A move and what it returned. -/
structure Response (ι : Type) extends Move ι where
  answer : Except Error Connection.Answer

/-- Whether a move queued a command of a connection. -/
def Response.queuesFor {ι : Type} [DecidableEq ι] (k : ι) (response : Response ι) : Bool :=
  decide (response.agent = k) && response.operation.queues response.answer

/-- A response queues for a connection if it is that connection's and its operation queued. -/
theorem Response.queuesFor_iff {ι : Type} [DecidableEq ι] {k : ι} {m : Move ι}
    {answer : Except Error Connection.Answer} :
    Response.queuesFor k ⟨m, answer⟩ = true ↔ m.agent = k ∧ m.operation.queues answer = true := by
  simp [queuesFor]

namespace Shared

variable {ι σ : Type} [DecidableEq ι] [ExpressionCompiler]

/-- New connections on an engine. -/
def start (settings : ι → Settings) (config : ι → Config) (state : σ) : Shared ι σ :=
  ⟨fun i => .start (settings i) (config i), state⟩

/-- Makes a move, which runs to its end before the next one begins. -/
def step (e : Engine σ) (w : Shared ι σ) (m : Move ι) :
    Except Error Connection.Answer × Shared ι σ :=
  let (answer, c, state) := (w.connections m.agent).step e m.operation w.state
  (answer, ⟨Function.update w.connections m.agent c, state⟩)

section Step

variable (e : Engine σ) (w : Shared ι σ) (m : Move ι)

/-- A move is answered as the connection that makes it answers. -/
theorem step_answer :
    (w.step e m).1 = ((w.connections m.agent).step e m.operation w.state).1 :=
  rfl

/-- A move leaves the engine in the state that its connection leaves it in. -/
theorem step_state :
    (w.step e m).2.state = ((w.connections m.agent).step e m.operation w.state).2.2 :=
  rfl

/-- A move changes the connection that makes it as its operation does. -/
theorem step_self : (w.step e m).2.connections m.agent =
    ((w.connections m.agent).step e m.operation w.state).2.1 :=
  Function.update_self ..

/-- A move changes no other connection. -/
theorem step_other {i : ι} (h : i ≠ m.agent) :
    (w.step e m).2.connections i = w.connections i :=
  Function.update_of_ne h ..

end Step

/-- The connections and the engine after moves. -/
def final (e : Engine σ) (w : Shared ι σ) : List (Move ι) → Shared ι σ
  | [] => w
  | m :: moves => (w.step e m).2.final e moves

/-- What moves return, one after another. -/
def responses (e : Engine σ) (w : Shared ι σ) : List (Move ι) → List (Response ι)
  | [] => []
  | m :: moves => ⟨m, (w.step e m).1⟩ :: (w.step e m).2.responses e moves

/-- The moves without those that queue a command of a connection. -/
def withoutQueued (e : Engine σ) (k : ι) (w : Shared ι σ) (moves : List (Move ι)) : List (Move ι) :=
  ((w.responses e moves).filter fun response => !response.queuesFor k).map (·.toMove)

/-! ## Two runs side by side -/

/-- `Hides k settings w v` says that `v` is `w`, except that the connection `k` may hold another
session. -/
structure Hides (k : ι) (settings : Settings) (w v : Shared ι σ) : Prop where
  state : v.state = w.state
  others : ∀ i, i ≠ k → v.connections i = w.connections i
  alike : Connection.Alike settings (w.connections k) (v.connections k)

/-- Whether a move is made by another connection, or is neither an execution nor a commit. -/
def isVisible (k : ι) (m : Move ι) : Bool :=
  decide (m.agent ≠ k) ||
    match m.operation with
    | .execute _ | .commit => false
    | _ => true

/-- What the visible moves return. It must not depend on the session that the connection holds. -/
def visible (k : ι) (responses : List (Response ι)) : List (Response ι) :=
  responses.filter fun r => isVisible k r.toMove

omit [ExpressionCompiler] in
/-- What the others see is seen in the order of the moves. -/
theorem visible_append (k : ι) (first second : List (Response ι)) :
    visible k (first ++ second) = visible k first ++ visible k second :=
  List.filter_append ..

/-- A move that queues a command is not visible. -/
theorem visible_cons_of_queues (e : Engine σ) {k : ι} {w : Shared ι σ} {m : Move ι}
    (hqueues : Response.queuesFor k ⟨m, (w.step e m).1⟩ = true) (rest : List (Response ι)) :
    visible k (⟨m, (w.step e m).1⟩ :: rest) = visible k rest := by
  obtain ⟨hk, hoperation⟩ := Response.queuesFor_iff.mp hqueues
  obtain ⟨⟨command, hexecute⟩, -⟩ := Connection.step_of_queues e w.state hoperation
  have hhidden : isVisible k m = false := by simp [isVisible, hk, hexecute]
  simp [visible, hhidden]

section Step

variable {k : ι} {settings : Settings} {w v : Shared ι σ} (h : Hides k settings w v)
variable (e : Engine σ) {m : Move ι}

include h

/-- A move keeps two worlds alike, if both commit the same commands or do not commit. -/
theorem Hides.step (hcommit : m.agent = k → m.operation = .commit →
      (v.connections k).pendingCommands = (w.connections k).pendingCommands) :
    Hides k settings (w.step e m).2 (v.step e m).2 := by
  by_cases hk : m.agent = k
  · subst hk
    constructor
    case state =>
      rw [step_state, step_state, h.state]
      exact h.alike.step_state e m.operation w.state (hcommit rfl)
    case others =>
      intro i hi
      rw [step_other e w m hi, step_other e v m hi]
      exact h.others i hi
    case alike =>
      rw [step_self, step_self, h.state]
      exact h.alike.step e m.operation w.state
  · have hsame := h.others m.agent hk
    constructor
    case state => rw [step_state, step_state, hsame, h.state]
    case others =>
      intro i hi
      by_cases hagent : i = m.agent
      · rw [hagent, step_self, step_self, hsame, h.state]
      · rw [step_other e w m hagent, step_other e v m hagent]
        exact h.others i hi
    case alike =>
      rw [step_other e w m (Ne.symm hk), step_other e v m (Ne.symm hk)]
      exact h.alike

/-- Worlds that are alike answer alike, unless the hidden connection commits. -/
theorem Hides.answer (hcommit : m.agent = k → m.operation ≠ .commit) :
    (v.step e m).1 = (w.step e m).1 := by
  rw [step_answer, step_answer, h.state]
  by_cases hk : m.agent = k
  · subst hk
    exact (h.alike.step_eq e w.state (hcommit rfl)).1
  · rw [h.others m.agent hk]

/-- If a move is visible, it gets the same answer. -/
theorem Hides.visible_cons {first second : List (Response ι)}
    (hrest : visible k second = visible k first) :
    visible k (⟨m, (v.step e m).1⟩ :: second) = visible k (⟨m, (w.step e m).1⟩ :: first) := by
  show visible k ([⟨m, (v.step e m).1⟩] ++ second) = visible k ([⟨m, (w.step e m).1⟩] ++ first)
  rw [visible_append, visible_append, hrest]
  cases hvisible : isVisible k m with
  | false => simp [visible, hvisible]
  | true =>
      have hcommit : m.agent = k → m.operation ≠ .commit := by
        intro hk hoperation
        simp [isVisible, hk, hoperation] at hvisible
      rw [h.answer e hcommit]

/-- The same commands stay pending. -/
theorem Hides.pendingCommands_step
    (hpending : (v.connections k).pendingCommands = (w.connections k).pendingCommands) :
    ((v.step e m).2.connections k).pendingCommands =
      ((w.step e m).2.connections k).pendingCommands := by
  by_cases hk : m.agent = k
  · subst hk
    rw [step_self, step_self, h.state]
    exact h.alike.pendingCommands_step hpending e m.operation w.state
  · rw [step_other e w m (Ne.symm hk), step_other e v m (Ne.symm hk)]
    exact hpending

/-- A move that queues a command can be left out. -/
theorem Hides.skip (hqueues : Response.queuesFor k ⟨m, (w.step e m).1⟩ = true) :
    Hides k settings (w.step e m).2 v := by
  obtain ⟨rfl, hoperation⟩ := Response.queuesFor_iff.mp hqueues
  constructor
  case state =>
    rw [step_state, (Connection.step_of_queues e w.state hoperation).2]
    exact h.state
  case others =>
    intro i hi
    rw [step_other e w m hi]
    exact h.others i hi
  case alike =>
    rw [step_self]
    exact h.alike.skip e w.state hoperation

/-- A move that queues nothing leaves nothing pending where nothing was pending. -/
theorem Hides.pendingCommands_eq_nil (hnone : (v.connections k).pendingCommands = [])
    (hcommit : m.agent = k → m.operation ≠ .commit)
    (hqueues : Response.queuesFor k ⟨m, (w.step e m).1⟩ = false) :
    ((v.step e m).2.connections k).pendingCommands = [] := by
  by_cases hk : m.agent = k
  · have hanswer := h.answer e hcommit
    subst hk
    rw [step_self]
    refine h.alike.right.pendingCommands_of_not_queues e v.state hnone ?_
    rw [← step_answer, hanswer]
    simpa [Response.queuesFor] using hqueues
  · rw [step_other e v m (Ne.symm hk)]
    exact hnone

end Step

/-! ## Whole schedules -/

section Schedules

variable {k : ι} {settings : Settings} {w v : Shared ι σ} (e : Engine σ)

/-- Where the same commands are pending, the same moves lead to the same. -/
theorem Hides.run (h : Hides k settings w v)
    (hpending : (v.connections k).pendingCommands = (w.connections k).pendingCommands)
    (moves : List (Move ι)) :
    (v.final e moves).state = (w.final e moves).state ∧
      visible k (v.responses e moves) = visible k (w.responses e moves) := by
  induction moves generalizing w v with
  | nil => exact ⟨h.state, rfl⟩
  | cons m moves ih =>
      obtain ⟨hstate, hresponses⟩ := ih (h.step e fun _ _ => hpending)
        (h.pendingCommands_step e hpending)
      exact ⟨hstate, h.visible_cons e hresponses⟩

/-- Where nothing is pending, moves that do not end the transaction lead to the same without
those that queue a command. -/
theorem Hides.run_withoutQueued (h : Hides k settings w v)
    (hnone : (v.connections k).pendingCommands = []) {moves : List (Move ι)}
    (hmoves : ∀ m ∈ moves, m.agent = k → Connection.endsBatch m.operation = false) :
    Hides k settings (w.final e moves) (v.final e (w.withoutQueued e k moves)) ∧
      ((v.final e (w.withoutQueued e k moves)).connections k).pendingCommands = [] ∧
      visible k (v.responses e (w.withoutQueued e k moves)) =
        visible k (w.responses e moves) := by
  induction moves generalizing w v with
  | nil => exact ⟨h, hnone, rfl⟩
  | cons m moves ih =>
      obtain ⟨hfirst, hrest⟩ := List.forall_mem_cons.mp hmoves
      cases hqueues : Response.queuesFor k ⟨m, (w.step e m).1⟩ with
      | true =>
          have hskip : w.withoutQueued e k (m :: moves) =
              (w.step e m).2.withoutQueued e k moves := by
            simp [withoutQueued, responses, hqueues]
          obtain ⟨hhides, hpending, hresponses⟩ := ih (h.skip e hqueues) hnone hrest
          rw [hskip, responses, visible_cons_of_queues e hqueues]
          exact ⟨hhides, hpending, hresponses⟩
      | false =>
          -- The move is kept, and no commit: it ends no transaction, and nothing becomes pending.
          have hkeep : w.withoutQueued e k (m :: moves) =
              m :: (w.step e m).2.withoutQueued e k moves := by
            simp [withoutQueued, responses, hqueues]
          have hcommit : m.agent = k → m.operation ≠ .commit := by
            intro hk hoperation
            exact absurd (hfirst hk) (by rw [hoperation]; exact Bool.noConfusion)
          have hstill := h.pendingCommands_eq_nil e hnone hcommit hqueues
          obtain ⟨hhides, hpending, hresponses⟩ :=
            ih (h.step e fun hk hoperation => absurd hoperation (hcommit hk)) hstill hrest
          rw [hkeep]
          exact ⟨hhides, hpending, h.visible_cons e hresponses⟩

/-- Where nothing is pending, moves that begin by giving up the transaction lead to the same. -/
theorem Hides.run_discarded (h : Hides k settings w v)
    (hnone : (v.connections k).pendingCommands = []) {later : List (Move ι)}
    (hlater : ∀ m ∈ later.head?, m.agent = k ∧ Connection.discards m.operation = true) :
    (v.final e later).state = (w.final e later).state ∧
      visible k (v.responses e later) = visible k (w.responses e later) := by
  cases later with
  | nil => exact ⟨h.state, rfl⟩
  | cons m later =>
      obtain ⟨rfl, hdiscards⟩ := hlater m rfl
      have hends := Connection.endsBatch_of_discards hdiscards
      have hcommit : m.operation ≠ .commit := by
        intro hoperation
        rw [hoperation] at hdiscards
        exact nomatch hdiscards
      -- What was pending in the first run only is given up, so that the runs agree again.
      have hpending : ((v.step e m).2.connections m.agent).pendingCommands =
          ((w.step e m).2.connections m.agent).pendingCommands := by
        rw [step_self, step_self, h.alike.left.pendingCommands_of_ends e w.state hends,
          h.alike.right.pendingCommands_of_ends e v.state hends]
      obtain ⟨hstate, hresponses⟩ :=
        (h.step e fun _ hoperation => absurd hoperation hcommit).run e hpending later
      exact ⟨hstate, h.visible_cons e hresponses⟩

/-- Moves can be made in two parts, the second from where the first one ends. -/
theorem final_append (w : Shared ι σ) (first second : List (Move ι)) :
    w.final e (first ++ second) = (w.final e first).final e second := by
  induction first generalizing w with
  | nil => rfl
  | cons m first ih => exact ih (w.step e m).2

/-- The responses to moves made in two parts are those to the first and then to the second. -/
theorem responses_append (w : Shared ι σ) (first second : List (Move ι)) :
    w.responses e (first ++ second) =
      w.responses e first ++ (w.final e first).responses e second := by
  induction first generalizing w with
  | nil => rfl
  | cons m first ih => exact congrArg (_ :: ·) (ih (w.step e m).2)

/-- Moves keep the sessions of every connection well formed. -/
theorem wellFormed_final {w : Shared ι σ} {k : ι} {settings : Settings}
    (hw : (w.connections k).WellFormed settings) (moves : List (Move ι)) :
    ((w.final e moves).connections k).WellFormed settings := by
  induction moves generalizing w with
  | nil => exact hw
  | cons m moves ih =>
      refine ih ?_
      by_cases hk : k = m.agent
      · subst hk
        obtain ⟨_, htransition⟩ :=
          Connection.transition_step e m.operation (w.connections m.agent) w.state
        rw [step_self]
        exact htransition.wellFormed hw
      · rw [step_other e w m hk]
        exact hw

end Schedules

/-! ## Transactions that are not submitted -/

/-- `Unsubmitted e k w earlier during later` says that the middle part of a schedule holds the
commands of one transaction of a connection, and that they are not submitted. -/
structure Unsubmitted (e : Engine σ) (k : ι) (w : Shared ι σ)
    (earlier during later : List (Move ι)) : Prop where
  /-- Nothing is pending at first, -/
  start : ((w.final e earlier).connections k).pendingCommands = []
  /-- the transaction is not ended in the middle, -/
  during : ∀ m ∈ during, m.agent = k → Connection.endsBatch m.operation = false
  /-- and afterwards it is given up, unless the schedule ends and leaves it pending. -/
  later : ∀ m ∈ later.head?, m.agent = k ∧ Connection.discards m.operation = true

/-- Without the moves that queue the commands of such a transaction, the rest of the schedule
leads to the same. -/
theorem Unsubmitted.run_eq {e : Engine σ} {k : ι} {settings : Settings} {w : Shared ι σ}
    {earlier during later : List (Move ι)} (h : Unsubmitted e k w earlier during later)
    (hw : (w.connections k).WellFormed settings) :
    let fewer := earlier ++ (w.final e earlier).withoutQueued e k during ++ later
    (w.final e fewer).state = (w.final e (earlier ++ during ++ later)).state ∧
      visible k (w.responses e fewer) = visible k (w.responses e (earlier ++ during ++ later)) := by
  intro fewer
  have hbefore := wellFormed_final e hw earlier
  have hsame : Hides k settings (w.final e earlier) (w.final e earlier) :=
    ⟨rfl, fun _ _ => rfl, hbefore, hbefore, rfl, rfl⟩
  obtain ⟨hhides, hpending, hduring⟩ := hsame.run_withoutQueued e h.start h.during
  obtain ⟨hstate, hlater⟩ := hhides.run_discarded e hpending h.later
  simp only [fewer, final_append, responses_append, visible_append]
  exact ⟨hstate, by rw [hduring, hlater]⟩

omit [ExpressionCompiler] in
/-- Runs with the same visible responses have the same of any kind that is visible. -/
theorem filter_eq_of_visible {k : ι} {p : Response ι → Bool} {first second : List (Response ι)}
    (h : visible k second = visible k first)
    (hp : ∀ r, p r = true → isVisible k r.toMove = true) : second.filter p = first.filter p := by
  have hnarrow : ∀ responses : List (Response ι),
      (visible k responses).filter p = responses.filter p := by
    intro responses
    rw [visible, List.filter_filter]
    refine List.filter_congr fun r _ => ?_
    cases hr : p r with
    | false => rfl
    | true => rw [hp r hr]; rfl
  rw [← hnarrow second, h, hnarrow]

end Shared

/-- Whether an operation is a query. -/
def Connection.Operation.isQuery : Connection.Operation → Bool
  | .query _ => true
  | _ => false

/-- A query is one of a command. -/
theorem Connection.Operation.exists_of_isQuery {operation : Connection.Operation}
    (h : operation.isQuery = true) : ∃ command, operation = .query command := by
  unfold isQuery at h
  split at h
  · next command => exact ⟨command, rfl⟩
  · exact nomatch h

namespace Memory

open Shared

variable {ι : Type} [DecidableEq ι]

/-- Two schedules do the same to a database in memory, and give the same answers to all
connections but one, and to the queries of that one. -/
structure SameOutcome [ExpressionCompiler] (name : String) (k : ι) (w : Shared ι Database)
    (moves fewer : List (Move ι)) : Prop where
  store : (w.final (engine name) fewer).state.store = (w.final (engine name) moves).state.store
  scripts :
    (w.final (engine name) fewer).state.scripts = (w.final (engine name) moves).state.scripts
  others : (w.responses (engine name) fewer).filter (fun r => decide (r.agent ≠ k)) =
    (w.responses (engine name) moves).filter fun r => decide (r.agent ≠ k)
  queries : (w.responses (engine name) fewer).filter
      (fun r => decide (r.agent = k) && r.operation.isQuery) =
    (w.responses (engine name) moves).filter fun r => decide (r.agent = k) && r.operation.isQuery

/-- Whatever connections share a database in memory and whatever they do in whatever order: a
transaction that one of them does not submit is invisible. Without the moves that queue its
commands, the outcome is the same. -/
theorem unsubmitted_invisible [ExpressionCompiler] (name : String) (settings : ι → Settings)
    (config : ι → Config) (d : Database) (k : ι) (earlier during later : List (Move ι))
    (h : Unsubmitted (engine name) k (start settings config d) earlier during later) :
    SameOutcome name k (start settings config d) (earlier ++ during ++ later)
      (earlier ++ ((start settings config d).final (engine name) earlier).withoutQueued
        (engine name) k during ++ later) := by
  obtain ⟨hstate, hresponses⟩ := h.run_eq (Connection.wellFormed_start (settings k) (config k))
  constructor
  case store => rw [hstate]
  case scripts => rw [hstate]
  case others =>
    refine filter_eq_of_visible hresponses fun r hother => ?_
    simp [isVisible, of_decide_eq_true hother]
  case queries =>
    refine filter_eq_of_visible hresponses fun r hquery => ?_
    obtain ⟨-, hoperation⟩ := Bool.and_eq_true_iff.mp hquery
    obtain ⟨command, hcommand⟩ := Connection.Operation.exists_of_isQuery hoperation
    simp [isVisible, hcommand]

/-- An insertion is queued and rolled back between the queries of two connections. -/
theorem rollback_invisible :
    let _ := ExpressionCompiler.unlimited
    let d := (Database.empty.runCommand "CREATE CLASS T").2
    let settings : Settings := { connection := { autoCommit := false } }
    let config : Config := { driver := "docql", name := "demo" }
    let w : Shared Bool Database := start (fun _ => settings) (fun _ => config) d
    let earlier : List (Move Bool) := [⟨true, .execute "INSERT INTO T SET a = 0"⟩, ⟨true, .commit⟩]
    let during : List (Move Bool) := [⟨true, .execute "INSERT INTO T SET a = 1"⟩,
      ⟨false, .query "SELECT FROM T"⟩, ⟨true, .query "SELECT FROM T"⟩]
    let later : List (Move Bool) := [⟨true, .rollback⟩, ⟨true, .execute "INSERT INTO T SET a = 2"⟩,
      ⟨true, .commit⟩, ⟨false, .query "SELECT FROM T"⟩]
    Unsubmitted (engine "demo") true w earlier during later ∧
      (w.final (engine "demo") earlier).withoutQueued (engine "demo") true during =
        [⟨false, .query "SELECT FROM T"⟩, ⟨true, .query "SELECT FROM T"⟩] ∧
      SameOutcome "demo" true w (earlier ++ during ++ later)
        (earlier ++ (w.final (engine "demo") earlier).withoutQueued (engine "demo") true during ++
          later) := by
  intro _ d settings config w earlier during later
  have hunsubmitted : Unsubmitted (engine "demo") true w earlier during later :=
    ⟨by decide +kernel, by decide +kernel, by decide +kernel⟩
  exact ⟨hunsubmitted, by decide +kernel, unsubmitted_invisible "demo" (fun _ => settings)
    (fun _ => config) d true earlier during later hunsubmitted⟩

end Memory

end DocumentClient
