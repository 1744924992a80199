import DocumentClient.Proofs.ScriptLines
import DocumentClient.Proofs.SessionLifecycle

/-!
# Which scripts are one unit

A session takes every command that is not blank and does not change the schema, so also one that
is itself a word that frames scripts. `submitted_framed_iff` says that such commands alone break
the frame of the script that a session with default settings submits.
-/

namespace DocumentClient.Session

open Memory

variable {σ : Type}

/-- What a session with default settings submits is one unit exactly if none of the commands
that it accepted is a word that frames scripts. -/
theorem submitted_framed_iff (e : Engine σ) (calls : List (Action × σ))
    (earlier : List (Event σ)) (event : Event σ) (later : List (Event σ))
    (h : events e calls (start {}) = earlier ++ event :: later) (language text : String)
    (hcall : Call.script language text ∈ event.calls) :
    Framed (scriptLines text.toList) ↔
      ∀ command ∈ earlier.flatMap accepted, Command.isFraming command = false := by
  have hcalls := calls_of_split h (List.ne_nil_of_mem hcall)
  obtain ⟨-, rfl⟩ := Engine.script_mem_scriptCalls (hcalls ▸ hcall)
  rw [ScriptFrame.script, String.toList_ofList]
  refine framed_build_iff fun command hcommand => ?_
  obtain ⟨before, action, state, after, -, rfl, -, -⟩ := Run.events_split h
  exact (accepted_of_mem hcommand).1

/-- A script of one insertion is one unit. -/
theorem insertion_framed :
    Framed (scriptLines "BEGIN\nINSERT INTO T SET a = 1\nCOMMIT\n".toList) :=
  (submitted_framed_iff (Memory.engine "demo")
    [(.append "INSERT INTO T SET a = 1", .empty), (.commit, .empty)] [_] _ [] rfl "sql" _
    (by decide +kernel)).mpr (by decide +kernel)

/-- A session accepts the command `COMMIT`, which then ends the unit before the second
insertion. -/
theorem commit_command_breaks_frame :
    let run := events (Memory.engine "demo")
      [(.append "INSERT INTO T SET a = 1", Database.empty), (.append "COMMIT", .empty),
        (.append "INSERT INTO T SET a = 2", .empty), (.commit, .empty)] (start {})
    let script := "BEGIN\nINSERT INTO T SET a = 1\nCOMMIT\nINSERT INTO T SET a = 2\nCOMMIT\n"
    run.flatMap accepted = ["INSERT INTO T SET a = 1", "COMMIT", "INSERT INTO T SET a = 2"] ∧
      run.flatMap (·.calls) = [.script "sql" script] ∧ ¬ Framed (scriptLines script.toList) := by
  refine ⟨by decide +kernel, by decide +kernel, fun h => ?_⟩
  exact absurd h.commits_once (by decide +kernel)

end DocumentClient.Session
