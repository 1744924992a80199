import DocumentClient.Memory.Engine
import DocumentClient.Proofs.StoreSteps

/-!
# What a failing command leaves behind

A command that fails leaves the store as it was, with one exception: an update checks and changes
one record after another, so that a unique index can stop it midway. `StopsMidway` says when this
happens, and `failure_of_apply` that nothing else is ever left behind.
-/

namespace DocumentClient.Memory.Store

variable {s : Store} {command : List Char}

/-- The command is an update that sets these fields of the records at the places `done` and is
stopped by a unique index at the next one. -/
def StopsAfter (s : Store) (command : List Char) (assignments : List Assignment)
    (done : List Nat) : Prop :=
  ∃ statement className condition place error,
    Statement.read? (statementText command) = some statement ∧
      s.ReadsUpdate statement className assignments condition ∧
      s.Stop assignments (s.targetPlaces className condition) done place error

/-- The command is an update that a unique index stops after it has changed a record. -/
def StopsMidway (s : Store) (command : List Char) : Prop :=
  ∃ assignments done, s.StopsAfter command assignments done ∧
    ∃ place ∈ done, ∃ r, s.records[place]? = some r ∧ r.setAll assignments ≠ r

/-- An update that is stopped has set the fields of the records before the forbidden one, and of
no other record. -/
theorem StopsAfter.apply_eq {assignments : List Assignment} {done : List Nat}
    (h : s.StopsAfter command assignments done) :
    (s.apply command).2 = s.assignAt assignments done := by
  obtain ⟨statement, className, condition, place, error, hread, hupdate, hstop⟩ := h
  rw [apply_of_read hread, run_update_stopped hupdate hstop]

/-- A command that fails was refused before it changed anything, or it is an update that was
stopped. -/
theorem apply_failing (h : (s.apply command).1.isOk = false) :
    (s.apply command).2 = s ∨ ∃ assignments done, s.StopsAfter command assignments done := by
  cases hread : Statement.read? (statementText command) with
  | none => exact .inl (apply_of_unread hread)
  | some statement =>
      rw [apply_of_read hread] at h ⊢
      have htransition := s.transition_run statement
      generalize (s.run statement).1 = answer, (s.run statement).2 = after at htransition h ⊢
      cases htransition with
      | refuse => exact .inl rfl
      | stop _ className assignments condition done place error hupdate hstop =>
          exact .inr ⟨assignments, done, statement, className, condition, place, error, hread,
            hupdate, hstop⟩
      | _ => exact nomatch h

/-- What a command that fails leaves of a store. -/
structure Failure (s : Store) (command : List Char) (after : Store) : Prop where
  /-- Nothing but records can have changed. -/
  catalog : after.catalog = s.catalog
  nextPositions : after.nextPositions = s.nextPositions
  nextPropertyId : after.nextPropertyId = s.nextPropertyId
  /-- The store is as it was, unless an update was stopped midway. -/
  unchanged_iff : after = s ↔ ¬ s.StopsMidway command
  /-- An update that was stopped has set the fields of the records before the forbidden one, and
  of no other record. -/
  stopped : ∀ assignments done, s.StopsAfter command assignments done →
    after = s.assignAt assignments done

/-- A command that fails leaves the store as it was, except for an update that a unique index
stops midway. -/
theorem failure_of_apply (s : Store) (command : List Char)
    (h : (s.apply command).1.isOk = false) : s.Failure command (s.apply command).2 := by
  have hframe : ∃ assignments done, (s.apply command).2 = s.assignAt assignments done := by
    rcases apply_failing h with hsame | ⟨assignments, done, hstop⟩
    · exact ⟨[], [], by rw [hsame, assignAt_nil]⟩
    · exact ⟨assignments, done, hstop.apply_eq⟩
  obtain ⟨fields, places, hafter⟩ := hframe
  refine ⟨by rw [hafter]; rfl, by rw [hafter]; rfl, by rw [hafter]; rfl, ⟨?_, ?_⟩, ?_⟩
  · rintro hsame ⟨assignments, done, hstop, place, hplace, r, hr, hchanged⟩
    rw [hstop.apply_eq, assignAt_eq_self_iff] at hsame
    exact hchanged (hsame place hplace r hr)
  · intro hwhole
    rcases apply_failing h with hsame | ⟨assignments, done, hstop⟩
    · exact hsame
    · rw [hstop.apply_eq, assignAt_eq_self_iff]
      intro place hplace r hr
      by_contra hchanged
      exact hwhole ⟨assignments, done, hstop, place, hplace, r, hr, hchanged⟩
  · intro assignments done hstop
    exact hstop.apply_eq

/-- Two records under a unique index. -/
def numbered : Database :=
  ["CREATE CLASS T", "CREATE INDEX i ON T (a) UNIQUE", "INSERT INTO T SET a = 1",
    "INSERT INTO T SET a = 2"].foldl (fun d command => (d.runCommand command).2) .empty

/-- The numbers in a store, record by record. -/
def numbers (s : Store) : List (Option Int64) :=
  s.records.map fun r => (r.get? "a").bind Value.asInt64?

/-- An update that the index forbids for the second record fails. -/
theorem stopped_update_failure :
    let command := "UPDATE T SET a = 3".toList
    (numbered.store.apply command).1.isOk = false ∧
      numbered.store.Failure command (numbered.store.apply command).2 := by
  intro command
  have hfail : (numbered.store.apply command).1.isOk = false := by decide +kernel
  exact ⟨hfail, failure_of_apply numbered.store command hfail⟩

/-- It leaves the first record changed, also when it runs on its own. -/
theorem stopped_update_changes_store :
    let run := numbered.runCommand "UPDATE T SET a = 3"
    run.1.isOk = false ∧ run.2.store ≠ numbered.store := by
  intro run
  obtain ⟨hfail, hbefore, hafter⟩ : run.1.isOk = false ∧
      numbers numbered.store = [some 1, some 2] ∧ numbers run.2.store = [some 3, some 2] := by
    decide +kernel
  refine ⟨hfail, fun hsame => ?_⟩
  rw [hsame, hbefore] at hafter
  exact absurd hafter (by decide)

end DocumentClient.Memory.Store
