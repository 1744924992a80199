import DocumentClient.Proofs.CommandLedger
import DocumentClient.Proofs.ScriptLines

/-!
# Commits are all or nothing

A commit on the in-memory engine does what its commands would do one after another, or nothing.
Read `runLines_working` first: while a script works on its copy of the store, the copy goes
through the stores of the run one by one and the live store stays as it is.
`commit_allOrNothing` is the statement about connections.
-/

namespace DocumentClient

/-- Runs commands one after another until one fails, and adds up the records they changed. -/
def Engine.runEach {σ : Type} (e : Engine σ) : List String → σ → Except EngineError Nat × σ
  | [], state => (.ok 0, state)
  | command :: commands, state =>
    match e.runCommand command state with
    | (.ok raw, state) =>
      let (answer, state) := e.runEach commands state
      (answer.map (raw.affected + ·), state)
    | (.error error, state) => (.error error, state)

namespace Engine

variable {σ : Type} {e : Engine σ} {command : String} {commands : List String} {state next : σ}

/-- If all commands succeed, then the first one does, and the others do after it. -/
theorem runEach_cons_ok {changed : Nat}
    (h : e.runEach (command :: commands) state = (.ok changed, next)) :
    ∃ raw middle others, e.runCommand command state = (.ok raw, middle) ∧
      e.runEach commands middle = (.ok others, next) ∧ changed = raw.affected + others := by
  rw [runEach] at h
  split at h
  · next raw middle hfirst =>
      rcases hrest : e.runEach commands middle with ⟨_ | others, last⟩
      · rw [hrest] at h
        exact nomatch h
      · rw [hrest] at h
        cases h
        exact ⟨raw, middle, others, hfirst, hrest, rfl⟩
  · exact nomatch h

/-- If they fail, then the first one does, or it succeeds and the others fail. -/
theorem runEach_cons_error {error : EngineError}
    (h : e.runEach (command :: commands) state = (.error error, next)) :
    e.runCommand command state = (.error error, next) ∨
      ∃ raw middle, e.runCommand command state = (.ok raw, middle) ∧
        e.runEach commands middle = (.error error, next) := by
  rw [runEach] at h
  split at h
  · next raw middle hfirst =>
      rcases hrest : e.runEach commands middle with ⟨_ | others, last⟩
      · rw [hrest] at h
        cases h
        exact .inr ⟨raw, middle, hfirst, hrest⟩
      · rw [hrest] at h
        exact nomatch h
  · next failure last hfirst =>
      cases h
      exact .inl hfirst

end Engine

namespace Memory

/-! ## Statements as scripts hold them -/

/-- Blanks around a statement make no difference to its text. -/
theorem Store.statementText_trim (text : List Char) :
    statementText (Text.trim text) = statementText text := by
  rw [statementText, Text.trim_trim, statementText]

/-- A command does the same as a line of a script and on its own. -/
theorem Store.apply_asRead (s : Store) (command : String) :
    s.apply (Command.asRead command) = s.apply (Command.normalized command).toList := by
  rw [apply, apply, Command.asRead, statementText_trim, Command.normalized, String.toList_ofList]

namespace Progress

/-- A line that is no frame of a script is applied as a statement. -/
theorem runLine_statement {p : Progress} {command : String}
    (h : Command.isFraming command = false) :
    p.runLine (Command.asRead command) = p.applyStatement (Command.asRead command) := by
  obtain ⟨hbegin, hcommit⟩ := Bool.or_eq_false_iff.mp h
  rw [← isMarker_asRead (by decide)] at hbegin hcommit
  rw [runLine, hbegin, hcommit, if_neg Bool.false_ne_true, if_neg Bool.false_ne_true]

/-- In a transaction a command changes the working copy as it changes a database on its own. -/
theorem runLine_working {command : String} (h : Command.isFraming command = false)
    (name : String) (live : Store) (d : Database) (count : Nat) :
    runLine ⟨live, some d.store, count⟩ (Command.asRead command) =
      match (Memory.engine name).runCommand (Command.normalized command) d with
      | (.ok raw, d) => (.ok (), ⟨live, some d.store, count + raw.affected⟩)
      | (.error error, d) => (.error error, ⟨live, some d.store, count⟩) := by
  rw [runLine_statement h, applyStatement]
  simp only [engine, Database.runCommand, current, Option.getD_some, ← Store.apply_asRead]
  rcases d.store.apply (Command.asRead command) with ⟨_ | _ | _, next⟩ <;> rfl

/-- Commands that all run take the working copy to the store that they lead to one after
another. -/
theorem runLines_working {name : String} {commands : List String}
    (h : ∀ command ∈ commands, Command.isFraming command = false) {d next : Database}
    {changed : Nat}
    (hrun : (Memory.engine name).runEach (commands.map Command.normalized) d = (.ok changed, next))
    (live : Store) (count : Nat) (rest : List (List Char)) :
    runLines ⟨live, some d.store, count⟩ (commands.map Command.asRead ++ rest) =
      runLines ⟨live, some next.store, count + changed⟩ rest := by
  -- The database and the count are general: each line starts where the one before it ended.
  induction commands generalizing d count changed with
  | nil =>
      cases hrun
      rfl
  | cons command commands ih =>
      obtain ⟨hcommand, hcommands⟩ := List.forall_mem_cons.mp h
      obtain ⟨raw, middle, others, hfirst, hrest, rfl⟩ := Engine.runEach_cons_ok hrun
      have hline := runLine_working hcommand name live d count
      rw [hfirst] at hline
      rw [List.map_cons, List.cons_append, runLines, hline, ← Nat.add_assoc]
      exact ih hcommands hrest _

/-- The first command that fails ends the script, and the live store is as it was. -/
theorem runLines_failing {name : String} {commands : List String}
    (h : ∀ command ∈ commands, Command.isFraming command = false) {d next : Database}
    {error : EngineError}
    (hrun : (Memory.engine name).runEach (commands.map Command.normalized) d = (.error error, next))
    (live : Store) (count : Nat) (rest : List (List Char)) :
    ∃ p, runLines ⟨live, some d.store, count⟩ (commands.map Command.asRead ++ rest) =
      (.error error, p) ∧ p.live = live := by
  induction commands generalizing d count with
  | nil => cases hrun
  | cons command commands ih =>
      obtain ⟨hcommand, hcommands⟩ := List.forall_mem_cons.mp h
      have hline := runLine_working hcommand name live d count
      rw [List.map_cons, List.cons_append, runLines]
      rcases Engine.runEach_cons_error hrun with hfirst | ⟨raw, middle, hfirst, hrest⟩
      · rw [hfirst] at hline
        rw [hline]
        exact ⟨_, rfl, rfl⟩
      · rw [hfirst] at hline
        rw [hline]
        exact ih hcommands hrest _

end Progress

/-! ## Whole scripts -/

section Scripts

variable {name : String} {commands : List String} {d next : Database}
variable (hblank : ∀ command ∈ commands, Text.isBlankText command = false)
variable (hframing : ∀ command ∈ commands, Command.isFraming command = false)

include hblank in
/-- The script of commands begins on a copy of the store and takes it over at the end. -/
theorem runScript_eq (name : String) (d : Database) :
    (engine name).runScript "sql" ((ScriptFrame.ofSettings {}).script commands) d =
      let (answer, p) := Progress.runLines ⟨d.store, some d.store, 0⟩
        (commands.map Command.asRead ++ ["COMMIT".toList])
      (answer.map fun _ => .count p.count, ⟨p.live, d.scripts + 1⟩) := by
  have hlanguage : Text.eqIgnoringAsciiCase "sql" "sql" = true := by decide
  have hbegin : (Progress.start d.store).runLine "BEGIN".toList =
      (.ok (), ⟨d.store, some d.store, 0⟩) := by
    rw [Progress.runLine, if_pos (by decide)]
    rfl
  simp only [engine]
  rw [Database.runScript, hlanguage, ScriptFrame.script, String.toList_ofList,
    scriptLines_build hblank, List.cons_append, Progress.runLines, hbegin]
  rfl

include hblank hframing in
/-- If the commands succeed one by one, then their script leads to the same store. -/
theorem runScript_ok {changed : Nat}
    (hrun : (engine name).runEach (commands.map Command.normalized) d = (.ok changed, next)) :
    (engine name).runScript "sql" ((ScriptFrame.ofSettings {}).script commands) d =
      (.ok (.count changed), ⟨next.store, d.scripts + 1⟩) := by
  have hcommit : Progress.runLines ⟨d.store, some next.store, 0 + changed⟩ ["COMMIT".toList] =
      (.ok (), ⟨next.store, none, changed⟩) := by
    rw [Nat.zero_add]
    rfl
  rw [runScript_eq hblank, Progress.runLines_working hframing hrun, hcommit]
  rfl

include hblank hframing in
/-- If they fail, then their script fails with the same error and leaves the store as it was. -/
theorem runScript_error {error : EngineError}
    (hrun : (engine name).runEach (commands.map Command.normalized) d = (.error error, next)) :
    (engine name).runScript "sql" ((ScriptFrame.ofSettings {}).script commands) d =
      (.error error, ⟨d.store, d.scripts + 1⟩) := by
  obtain ⟨p, hlines, hlive⟩ :=
    Progress.runLines_failing hframing hrun d.store 0 ["COMMIT".toList]
  rw [runScript_eq hblank, hlines, ← hlive]
  rfl

end Scripts

end Memory

namespace Connection

open Memory

/-! ## Commits -/

/-- While commands are pending, a connection is open, in manual mode, and holds them in a session
that accepts commands. -/
theorem WellFormed.session_of_pending {settings : Settings} {c : Connection}
    (hc : c.WellFormed settings) (hpending : c.pendingCommands ≠ []) :
    c.closed = false ∧ c.autoCommit = false ∧ ∃ s, c.session = some s ∧
      s.isAccumulating = true ∧ s.batch.commands = c.pendingCommands ∧
      s.settings = settings.transaction := by
  refine ⟨?_, ?_, ?_⟩
  · exact Bool.eq_false_iff.mpr fun hclosed => hpending (hc.pendingCommands_of_closed hclosed)
  · exact Bool.eq_false_iff.mpr fun hmode => hpending (hc.pendingCommands_of_autoCommit hmode)
  · cases hsession : c.session with
    | none => exact absurd (pendingCommands_of_none hsession) hpending
    | some s =>
        cases hphase : s.isAccumulating with
        | false => exact absurd (pendingCommands_of_finished hsession hphase) hpending
        | true =>
            have hcommands := pendingCommands_of_accumulating hsession hphase
            exact ⟨s, rfl, hphase, hcommands.symm, hc.session_settings s hsession⟩

/-- A commit of a connection is that of its session. -/
theorem commit_of_session {σ : Type} (e : Engine σ) {c : Connection} {s : Session} (state : σ)
    (hopen : c.closed = false) (hmode : c.autoCommit = false) (hsession : c.session = some s) :
    c.commit e state = ((s.commit e state).1, { c with session := some (s.commit e state).2.1 },
      (s.commit e state).2.2) := by
  rw [commit, hopen, hmode, hsession]
  rfl

/-- A commit with nothing pending does nothing to the engine. -/
theorem commit_idle {σ : Type} (e : Engine σ) {c : Connection} (state : σ)
    (h : c.pendingCommands = []) : (c.commit e state).2.2 = state := by
  rw [commit]
  split
  · rfl
  · split
    · rfl
    · split
      · rfl
      · next s hsession =>
          rw [pendingCommands_of_some hsession] at h
          cases hphase : s.isAccumulating with
          | false => simp [Session.commit, hphase]
          | true =>
              rw [hphase, if_pos rfl] at h
              simp [Session.commit, hphase, Batch.isEmpty, h]

section Commit

variable {σ : Type} {e : Engine σ} {settings : Settings} {c : Connection} {state next : σ}
variable (hc : c.WellFormed settings) (hpending : c.pendingCommands ≠ [])

include hc hpending in
/-- A commit of pending commands whose script runs returns its result. -/
theorem commit_ok {raw : RawResult}
    (hreply : e.runScript settings.transaction.language
      ((ScriptFrame.ofSettings settings.transaction).script c.pendingCommands) state =
        (.ok raw, next)) :
    ∃ after, c.commit e state = (.ok (e.resultOf raw next).1, after, (e.resultOf raw next).2) := by
  obtain ⟨hopen, hmode, s, hsession, hphase, hcommands, hsettings⟩ :=
    hc.session_of_pending hpending
  rw [← hcommands, ← hsettings] at hreply
  have hcommit := Session.commit_ok hphase (hcommands ▸ hpending) hreply
  exact ⟨_, by rw [commit_of_session e state hopen hmode hsession, hcommit]⟩

include hc hpending in
/-- A commit of pending commands whose script fails returns the error. -/
theorem commit_error {error : EngineError}
    (hreply : e.runScript settings.transaction.language
      ((ScriptFrame.ofSettings settings.transaction).script c.pendingCommands) state =
        (.error error, next)) :
    ∃ after, c.commit e state = (.error error.toError, after, next) := by
  obtain ⟨hopen, hmode, s, hsession, hphase, hcommands, hsettings⟩ :=
    hc.session_of_pending hpending
  rw [← hcommands, ← hsettings] at hreply
  have hcommit := Session.commit_error hphase (hcommands ▸ hpending) hreply
  exact ⟨_, by rw [commit_of_session e state hopen hmode hsession, hcommit]⟩

end Commit

/-- What a commit of some commands does to a database: all that they do one after another, or
nothing. -/
structure AllOrNothing (name : String) (c : Connection) (commands : List String) (d : Database) :
    Prop where
  /-- If all commands run, the commit leads to the same store and adds up their counts. -/
  all : ∀ changed next,
    (Memory.engine name).runEach (commands.map Command.normalized) d = (.ok changed, next) →
    ∃ result, (c.commit (Memory.engine name) d).1 = .ok result ∧ result.affected = changed ∧
      (c.commit (Memory.engine name) d).2.2.store = next.store
  /-- If one fails, the commit fails with the error of the first that does, and the store is as it
  was. -/
  nothing : ∀ error next,
    (Memory.engine name).runEach (commands.map Command.normalized) d = (.error error, next) →
    (c.commit (Memory.engine name) d).1 = .error error.toError ∧
      (c.commit (Memory.engine name) d).2.2.store = d.store

/-- Whatever was done with a new connection with default transactions, and whatever happened to
the database meanwhile: a commit of the commands that it queued since its last transaction ended
is all or nothing, unless one of them is a word that frames scripts. -/
theorem commit_allOrNothing [ExpressionCompiler] (name : String) (settings : Settings)
    (htransaction : settings.transaction = {}) (config : Config)
    (operations : List (Operation × Database)) (d : Database)
    (hne : openBatch (events (Memory.engine name) operations (start settings config)) ≠ [])
    (hframing : ∀ command ∈ openBatch (events (Memory.engine name) operations
      (start settings config)), Command.isFraming command = false) :
    AllOrNothing name (final (Memory.engine name) operations (start settings config))
      (openBatch (events (Memory.engine name) operations (start settings config))) d := by
  have hstart := wellFormed_start settings config
  have hc := wellFormed_final (Memory.engine name) operations hstart
  have hpending : (final (Memory.engine name) operations (start settings config)).pendingCommands =
      openBatch (events (Memory.engine name) operations (start settings config)) :=
    pendingCommands_final (Memory.engine name) operations hstart
  rw [← hpending] at hne hframing ⊢
  -- A blank command would be no line of the script, but none is ever queued.
  have hblank : ∀ command ∈
      (final (Memory.engine name) operations (start settings config)).pendingCommands,
      Text.isBlankText command = false := by
    intro command hcommand
    obtain ⟨event, hevent, hqueued⟩ := queued_of_pending hcommand
    exact (((transition_of_mem hevent).2.queued_iff command).mp hqueued).2.2.2.1
  have hlanguage : ({} : TransactionSettings).language = "sql" := rfl
  constructor
  case all =>
    intro changed next hrun
    have hscript := runScript_ok hblank hframing hrun
    rw [← hlanguage, ← htransaction] at hscript
    obtain ⟨after, hcommit⟩ := commit_ok hc hne hscript
    rw [hcommit]
    exact ⟨_, rfl, rfl, rfl⟩
  case nothing =>
    intro error next hrun
    have hscript := runScript_error hblank hframing hrun
    rw [← hlanguage, ← htransaction] at hscript
    obtain ⟨after, hcommit⟩ := commit_error hc hne hscript
    rw [hcommit]
    exact ⟨rfl, rfl⟩

/-- Two insertions are committed together. -/
theorem insertions_allOrNothing :
    let _ := ExpressionCompiler.unlimited
    let d := (Database.empty.runCommand "CREATE CLASS T").2
    let commands := ["INSERT INTO T SET a = 1", "INSERT INTO T SET a = 2"]
    ((engine "demo").runEach (commands.map Command.normalized) d).1.toOption = some 2 ∧
      AllOrNothing "demo" (final (engine "demo") (commands.map fun command => (.execute command, d))
        (start { connection := { autoCommit := false } } { driver := "docql", name := "demo" }))
        commands d := by
  intro _ d commands
  refine ⟨by decide +kernel, ?_⟩
  have hopen : openBatch (events (engine "demo") (commands.map fun command => (.execute command, d))
      (start { connection := { autoCommit := false } } { driver := "docql", name := "demo" })) =
      commands := by
    decide +kernel
  have hcommit := commit_allOrNothing "demo" { connection := { autoCommit := false } } rfl
    { driver := "docql", name := "demo" } (commands.map fun command => (.execute command, d)) d
    (by decide +kernel) (by decide +kernel)
  rwa [hopen] at hcommit

end Connection

end DocumentClient
