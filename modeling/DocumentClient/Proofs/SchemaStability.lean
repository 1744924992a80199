import DocumentClient.Proofs.CommitAtomicity
import DocumentClient.Proofs.SchemaWords
import DocumentClient.Proofs.ScriptRuns
import DocumentClient.Proofs.StoreSteps

/-!
# Transactions keep the schema

A commit on the in-memory engine leaves the schema as it was, whatever commands were queued and
whether it succeeds or fails. A statement that is no schema change keeps the schema
(`Transition.sameSchema`), so a script of accepted commands does, line by line, on the live store
and on the working copy; it makes no difference if some of these commands read `BEGIN` or
`COMMIT`.
-/

namespace DocumentClient.Memory

namespace Store

/-- `t` has the schema of `s`, and gives the next property the same number. -/
structure SameSchema (s t : Store) : Prop where
  catalog : t.catalog = s.catalog
  nextPropertyId : t.nextPropertyId = s.nextPropertyId

/-- A store has its own schema. -/
theorem SameSchema.refl (s : Store) : s.SameSchema s :=
  ⟨rfl, rfl⟩

/-- Schemas are compared transitively. -/
theorem SameSchema.trans {s t u : Store} (hst : s.SameSchema t) (htu : t.SameSchema u) :
    s.SameSchema u :=
  ⟨htu.catalog.trans hst.catalog, htu.nextPropertyId.trans hst.nextPropertyId⟩

/-- A statement that is no schema change keeps the schema. -/
theorem Transition.sameSchema {s after : Store} {statement : Statement}
    {answer : Except EngineError Outcome} (h : s.Transition statement answer after)
    (hdata : statement.changesSchema = false) : s.SameSchema after := by
  cases h with
  | createClass | createProperty | createIndex => exact nomatch hdata
  | refuse | insert | update | stop | delete | select => exact ⟨rfl, rfl⟩

/-- A text that reads as no statement of the schema keeps the schema, whatever its outcome. -/
theorem apply_sameSchema (s : Store) {command : List Char}
    (h : ∀ statement, Statement.read? (statementText command) = some statement →
      statement.changesSchema = false) : s.SameSchema (s.apply command).2 :=
  apply_kept (.refl s) fun statement hread =>
    (s.transition_run statement).sameSchema (h statement hread)

end Store

/-! ## Scripts -/

/-- The markers are commands that the classifier accepts. -/
theorem markers_accepted : ∀ word ∈ ["BEGIN", "COMMIT"],
    Command.classify word = .accept ∧ Command.asRead word = word.toList := by
  decide +kernel

/-- The script of accepted commands keeps the schema, however it ends. -/
theorem runScript_sameSchema {commands : List String}
    (hblank : ∀ command ∈ commands, Text.isBlankText command = false)
    (haccept : ∀ command ∈ commands, Command.classify command = .accept) (name language : String)
    (d : Database) :
    d.store.SameSchema ((engine name).runScript language
      ((ScriptFrame.ofSettings {}).script commands) d).2.store := by
  have haccepted : ∀ command, Command.classify command = .accept →
      ∀ s, d.store.SameSchema s → d.store.SameSchema (s.apply (Command.asRead command)).2 :=
    fun command h s hs => hs.trans (s.apply_sameSchema fun _ => changesSchema_of_accept h)
  have hmarker : ∀ word ∈ ["BEGIN", "COMMIT"], ∀ s, d.store.SameSchema s →
      d.store.SameSchema (s.apply word.toList).2 := by
    intro word hword
    rw [← (markers_accepted word hword).2]
    exact haccepted word (markers_accepted word hword).1
  have hlines : ∀ line ∈ "BEGIN".toList :: commands.map Command.asRead ++ ["COMMIT".toList],
      ∀ s, d.store.SameSchema s → d.store.SameSchema (s.apply line).2 := by
    intro line hline
    rw [List.mem_append, List.mem_cons, List.mem_singleton, List.mem_map] at hline
    rcases hline with (rfl | ⟨command, hcommand, rfl⟩) | rfl
    · exact hmarker "BEGIN" (by decide)
    · exact haccepted command (haccept command hcommand)
    · exact hmarker "COMMIT" (by decide)
  have hstart : (Progress.start d.store).Everywhere d.store.SameSchema :=
    ⟨.refl d.store, fun _ hnone => nomatch hnone⟩
  show d.store.SameSchema
    (d.runScript language ((ScriptFrame.ofSettings {}).script commands)).2.store
  rw [Database.runScript_store, ScriptFrame.script, String.toList_ofList, scriptLines_build hblank]
  split
  · exact (hstart.runLines hlines).live
  · exact .refl d.store

/-- Making a table of what a script or a command returned leaves a database as it is. -/
theorem resultOf_database (name : String) (raw : RawResult) (d : Database) :
    ((engine name).resultOf raw d).2 = d := by
  cases raw with
  | link rid =>
      cases hload : d.store.load? rid <;> simp [Engine.resultOf, Engine.rowsOf, engine, hload]
  | _ => rfl

end Memory

namespace Connection

open Memory

/-! ## Commits -/

/-- A commit of accepted commands keeps the schema, whether it succeeds or fails. -/
theorem commit_sameSchema {settings : Settings} (htransaction : settings.transaction = {})
    {c : Connection} (hc : c.WellFormed settings)
    (hblank : ∀ command ∈ c.pendingCommands, Text.isBlankText command = false)
    (haccept : ∀ command ∈ c.pendingCommands, Command.classify command = .accept)
    (name : String) (d : Database) :
    d.store.SameSchema (c.commit (Memory.engine name) d).2.2.store := by
  by_cases hpending : c.pendingCommands = []
  · rw [commit_idle _ d hpending]
    exact .refl d.store
  · have hscript := runScript_sameSchema hblank haccept name settings.transaction.language d
    rw [← htransaction] at hscript
    rcases hreply : (Memory.engine name).runScript settings.transaction.language
      ((ScriptFrame.ofSettings settings.transaction).script c.pendingCommands) d with
      ⟨error | raw, next⟩
    · obtain ⟨after, hcommit⟩ := commit_error hc hpending hreply
      rw [hreply] at hscript
      rw [hcommit]
      exact hscript
    · obtain ⟨after, hcommit⟩ := commit_ok hc hpending hreply
      rw [hreply] at hscript
      rw [hcommit, resultOf_database]
      exact hscript

/-- Whatever was done with a new connection with default transactions, and whatever happened to
the database meanwhile: its commit keeps the schema. For the engine takes no line of a command
that the classifier accepts for a schema change. -/
theorem commit_keepsSchema [ExpressionCompiler] (name : String) (settings : Settings)
    (htransaction : settings.transaction = {}) (config : Config)
    (operations : List (Operation × Database)) (d : Database) :
    (∀ command, Command.classify command = .accept → ∀ statement,
      Statement.read? (Store.statementText (Command.normalized command).toList) =
        some statement → statement.changesSchema = false) ∧
    d.store.SameSchema ((final (Memory.engine name) operations (start settings config)).commit
      (Memory.engine name) d).2.2.store := by
  have hc := wellFormed_final (Memory.engine name) operations (wellFormed_start settings config)
  have hqueued : ∀ command ∈
      (final (Memory.engine name) operations (start settings config)).pendingCommands,
      Text.isBlankText command = false ∧ Command.classify command = .accept := by
    intro command hcommand
    obtain ⟨event, hevent, hqueued⟩ := queued_of_pending hcommand
    exact (((transition_of_mem hevent).2.queued_iff command).mp hqueued).2.2.2
  refine ⟨fun command haccept statement hread => ?_, ?_⟩
  · refine changesSchema_of_accept haccept ?_
    rw [Command.normalized, String.toList_ofList] at hread
    rw [Command.asRead, Store.statementText_trim]
    exact hread
  · exact commit_sameSchema htransaction hc (fun command h => (hqueued command h).1)
      (fun command h => (hqueued command h).2) name d

/-- A commit of an insertion and of a command that ends the transaction before it keeps the
schema. -/
theorem early_commit_keepsSchema :
    let _ := ExpressionCompiler.unlimited
    let d := (Database.empty.runCommand "CREATE CLASS T").2
    let settings : Settings := { connection := { autoCommit := false } }
    let commands := ["INSERT INTO T SET a = 1", "COMMIT", "INSERT INTO U SET a = 2"]
    let c := final (Memory.engine "demo") (commands.map fun command => (.execute command, d))
      (start settings { driver := "docql", name := "demo" })
    settings.transaction = {} ∧ c.pendingCommands = commands ∧
      d.store.SameSchema (c.commit (Memory.engine "demo") d).2.2.store := by
  intro _ d settings commands
  have hkeep := commit_keepsSchema "demo" settings rfl { driver := "docql", name := "demo" }
    (commands.map fun command => (.execute command, d)) d
  exact ⟨rfl, by decide +kernel, hkeep.2⟩

end Connection

end DocumentClient
