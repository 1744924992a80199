import DocumentClient.Memory.Engine

/-!
# Runs of scripts

What each line of a script keeps, the whole script keeps (`runLines_invariant`). Two such facts
are followed through a run: a property of stores that every statement keeps (`Everywhere`), and
the live store while a transaction is open (`runLines_open`). From the second follows
`runScript_unfinished`: a transaction that a script does not commit has no effect.
-/

namespace DocumentClient.Memory

namespace Progress

variable {p : Progress} {line : List Char} {lines : List (List Char)}

/-! ## One line -/

/-- A line begins a transaction, commits one, or is a statement. -/
theorem runLine_cases (p : Progress) (line : List Char) :
    (isMarker "BEGIN" line = true ∧ p.runLine line = (.ok (), p.beginTransaction)) ∨
      (isMarker "COMMIT" line = true ∧ p.runLine line = (.ok (), p.commitTransaction)) ∨
      p.runLine line = p.applyStatement line := by
  unfold runLine
  by_cases hbegin : isMarker "BEGIN" line = true
  · exact .inl ⟨hbegin, if_pos hbegin⟩
  · rw [if_neg hbegin]
    by_cases hcommit : isMarker "COMMIT" line = true
    · exact .inr (.inl ⟨hcommit, if_pos hcommit⟩)
    · exact .inr (.inr (if_neg hcommit))

/-- What a line asks for. -/
inductive Action where
  | begin
  | commit
  | apply (statement : List Char)

/-- The action of a line of a script. -/
def Action.ofLine (line : List Char) : Action :=
  if isMarker "BEGIN" line then .begin
  else if isMarker "COMMIT" line then .commit
  else .apply line

/-- How far a script has come once an action is carried out, whether it succeeds or not. -/
def act (p : Progress) : Action → Progress
  | .begin => p.beginTransaction
  | .commit => p.commitTransaction
  | .apply statement => (p.applyStatement statement).2

/-- A line does the action it reads as. -/
theorem runLine_eq_act (p : Progress) (line : List Char) :
    (p.runLine line).2 = p.act (.ofLine line) := by
  rw [runLine, Action.ofLine]
  split
  · rfl
  · split <;> rfl

/-- A line that is a statement is applied as it stands. -/
theorem Action.eq_line_of_ofLine {statement : List Char}
    (h : Action.ofLine line = .apply statement) : line = statement := by
  unfold Action.ofLine at h
  split at h
  · exact nomatch h
  · split at h
    · exact nomatch h
    · exact Action.apply.inj h

/-- The marker `BEGIN` opens a transaction and cannot fail. -/
theorem runLine_begin (p : Progress) (h : isMarker "BEGIN" line = true) :
    p.runLine line = (.ok (), p.beginTransaction) := by
  rw [runLine, h, if_pos rfl]

/-- In an open transaction a statement changes the working copy, whether it succeeds or not. -/
theorem applyStatement_working {s : Store} (line : List Char) (h : p.working = some s) :
    (p.applyStatement line).2.live = p.live ∧
      (p.applyStatement line).2.working = some (s.apply line).2 := by
  rw [applyStatement, current, h, Option.getD_some]
  rcases s.apply line with ⟨_ | _ | _, next⟩ <;> simp [withCurrent, h]

/-- Outside a transaction it changes the live store. -/
theorem applyStatement_live (line : List Char) (h : p.working = none) :
    (p.applyStatement line).2.live = (p.live.apply line).2 ∧
      (p.applyStatement line).2.working = none := by
  rw [applyStatement, current, h, Option.getD_none]
  rcases p.live.apply line with ⟨_ | _ | _, next⟩ <;> simp [withCurrent, h]

/-! ## Many lines -/

/-- Running lines after other lines is running both, up to the first error. -/
theorem runLines_append (p : Progress) (first second : List (List Char)) :
    p.runLines (first ++ second) =
      match p.runLines first with
      | (.ok (), middle) => middle.runLines second
      | (.error error, middle) => (.error error, middle) := by
  induction first generalizing p with
  | nil => rfl
  | cons line first ih =>
      rw [List.cons_append, runLines, runLines]
      rcases p.runLine line with ⟨error | _, middle⟩
      · rfl
      · exact ih middle

/-- What each line keeps, all of them keep, also where one of them fails. -/
theorem runLines_invariant (Inv : Progress → Prop) {lines : List (List Char)}
    (hline : ∀ line ∈ lines, ∀ p : Progress, Inv p → Inv (p.runLine line).2) {p : Progress}
    (hp : Inv p) : Inv (p.runLines lines).2 := by
  induction lines generalizing p with
  | nil => exact hp
  | cons line lines ih =>
      obtain ⟨hfirst, hrest⟩ := List.forall_mem_cons.mp hline
      have hafter := hfirst p hp
      rw [runLines]
      rcases hrun : p.runLine line with ⟨error | _, after⟩
      · rw [hrun] at hafter
        exact hafter
      · rw [hrun] at hafter
        exact ih hrest hafter

/-- The live store and the working copy, if there is one, have a property. -/
structure Everywhere (P : Store → Prop) (p : Progress) : Prop where
  live : P p.live
  working : ∀ s, p.working = some s → P s

instance (P : Store → Prop) [DecidablePred P] (p : Progress) : Decidable (p.Everywhere P) :=
  decidable_of_iff (P p.live ∧ ∀ s ∈ p.working, P s)
    ⟨fun h => ⟨h.1, h.2⟩, fun h => ⟨h.live, h.working⟩⟩

/-- At the start, the live store is the only one there is. -/
theorem everywhere_start {P : Store → Prop} {s : Store} (h : P s) : (start s).Everywhere P :=
  ⟨h, fun _ hnone => nomatch hnone⟩

/-- A property of all stores of a script may be weakened. -/
theorem Everywhere.mono {P Q : Store → Prop} (hp : p.Everywhere P) (h : ∀ s, P s → Q s) :
    p.Everywhere Q :=
  ⟨h _ hp.live, fun s hs => h s (hp.working s hs)⟩

/-- Two properties of all stores of a script may be joined. -/
theorem Everywhere.and {P Q : Store → Prop} (hP : p.Everywhere P) (hQ : p.Everywhere Q) :
    p.Everywhere fun s => P s ∧ Q s :=
  ⟨⟨hP.live, hQ.live⟩, fun s hs => ⟨hP.working s hs, hQ.working s hs⟩⟩

/-- A property of all stores of a script holds of the one in use. -/
theorem Everywhere.current {P : Store → Prop} (hp : p.Everywhere P) : P p.current := by
  rw [Progress.current]
  cases hworking : p.working with
  | none => exact hp.live
  | some s => exact hp.working s hworking

/-- An action adds no store but the one that its statement makes of the current one. -/
theorem Everywhere.act {P : Store → Prop} {action : Action} (hp : p.Everywhere P)
    (happly : ∀ statement, action = .apply statement → P (p.current.apply statement).2) :
    (p.act action).Everywhere P := by
  cases action with
  | begin =>
      refine ⟨hp.live, fun s hs => ?_⟩
      obtain rfl := Option.some.inj hs
      exact hp.live
  | commit =>
      rw [Progress.act, commitTransaction]
      split
      · next s hs => exact ⟨hp.working s hs, fun _ hnone => nomatch hnone⟩
      · exact hp
  | apply statement =>
      have hnext := happly statement rfl
      rw [Progress.current] at hnext
      cases hworking : p.working with
      | none =>
          obtain ⟨hlive, hnone⟩ := applyStatement_live statement hworking
          rw [hworking, Option.getD_none, ← hlive] at hnext
          refine ⟨hnext, fun s hs => ?_⟩
          exact nomatch hnone.symm.trans hs
      | some s =>
          obtain ⟨hlive, hcopy⟩ := applyStatement_working statement hworking
          rw [hworking, Option.getD_some] at hnext
          refine ⟨hlive ▸ hp.live, fun t ht => ?_⟩
          obtain rfl := Option.some.inj (hcopy.symm.trans ht)
          exact hnext

/-- A line keeps what each statement keeps, since transactions only copy stores. -/
theorem Everywhere.runLine {P : Store → Prop} (hp : p.Everywhere P)
    (hline : ∀ s, P s → P (s.apply line).2) : (p.runLine line).2.Everywhere P := by
  rw [runLine_eq_act]
  refine hp.act fun statement haction => ?_
  obtain rfl := Action.eq_line_of_ofLine haction
  exact hline _ hp.current

/-- A property that every statement of a script keeps holds of its stores all the way. -/
theorem Everywhere.runLines {P : Store → Prop} (hp : p.Everywhere P)
    (hlines : ∀ line ∈ lines, ∀ s, P s → P (s.apply line).2) :
    (p.runLines lines).2.Everywhere P :=
  runLines_invariant (Everywhere P) (fun line hline _ hp => hp.runLine (hlines line hline)) hp

/-! ## Open transactions -/

/-- While a transaction is open, a line that does not commit it leaves the live store alone. -/
theorem runLine_open (hopen : p.working.isSome = true) (hline : isMarker "COMMIT" line = false) :
    (p.runLine line).2.live = p.live ∧ (p.runLine line).2.working.isSome = true := by
  rcases p.runLine_cases line with ⟨-, hrun⟩ | ⟨hcommit, -⟩ | hrun
  · rw [hrun]
    exact ⟨rfl, rfl⟩
  · exact absurd (hcommit.symm.trans hline) (Bool.false_ne_true ∘ Eq.symm)
  · obtain ⟨s, hs⟩ := Option.isSome_iff_exists.mp hopen
    obtain ⟨hlive, hcopy⟩ := applyStatement_working line hs
    rw [hrun, hcopy]
    exact ⟨hlive, rfl⟩

/-- Inside a transaction and without `COMMIT`, no line reaches the live store. -/
theorem runLines_open (hopen : p.working.isSome = true)
    (hlines : ∀ line ∈ lines, isMarker "COMMIT" line = false) :
    (p.runLines lines).2.live = p.live := by
  refine (runLines_invariant (fun q => q.live = p.live ∧ q.working.isSome = true) ?_
    ⟨rfl, hopen⟩).1
  rintro line hline q ⟨hlive, hq⟩
  have hstep := runLine_open hq (hlines line hline)
  exact ⟨hstep.1.trans hlive, hstep.2⟩

/-- Lines that begin a transaction and do not commit it have no effect on the live store. -/
theorem runLines_unfinished (p : Progress) (before : List (List Char))
    (hbegin : isMarker "BEGIN" line = true)
    (hlines : ∀ line ∈ lines, isMarker "COMMIT" line = false) :
    (p.runLines (before ++ line :: lines)).2.live = (p.runLines before).2.live := by
  rw [runLines_append]
  rcases p.runLines before with ⟨error | _, middle⟩
  · rfl
  · have hopen : middle.beginTransaction.working.isSome = true := rfl
    simp only [runLines, runLine_begin middle hbegin]
    exact runLines_open hopen hlines

end Progress

/-! ## Whole scripts -/

namespace Database

/-- A script in the language of the database leaves the live store its lines leave, any other
none. -/
theorem runScript_store (language script : String) (d : Database) :
    (d.runScript language script).2.store =
      if Text.eqIgnoringAsciiCase language "sql" then
        ((Progress.start d.store).runLines (scriptLines script.toList)).2.live
      else d.store := by
  rw [runScript]
  cases Text.eqIgnoringAsciiCase language "sql" <;> rfl

/-- A transaction that is begun and not committed has no effect. Whatever its lines are, and
however the lines before it end, the script leaves the store that those alone leave. -/
theorem runScript_unfinished (language : String) (d : Database) {script whole : String}
    {marker : List Char} {lines : List (List Char)}
    (hwhole : Text.lines whole.toList = Text.lines script.toList ++ marker :: lines)
    (hbegin : Progress.isMarker "BEGIN" (Text.trim marker) = true)
    (hlines : ∀ line ∈ lines, Progress.isMarker "COMMIT" (Text.trim line) = false) :
    (d.runScript language whole).2.store = (d.runScript language script).2.store := by
  have hmarker : Text.trim marker ≠ [] := by
    intro hnil
    rw [hnil] at hbegin
    exact absurd hbegin (by decide)
  -- Leaving out blank lines keeps the marker and adds no line that commits.
  have hsplit : scriptLines whole.toList = scriptLines script.toList ++
      Text.trim marker :: (lines.map Text.trim).filter fun line => !line.isEmpty := by
    rw [scriptLines, scriptLines, hwhole, List.map_append, List.map_cons, List.filter_append,
      List.filter_cons_of_pos (by simpa using hmarker)]
  have hrest : ∀ line ∈ (lines.map Text.trim).filter fun line => !line.isEmpty,
      Progress.isMarker "COMMIT" line = false := by
    intro line hline
    obtain ⟨raw, hraw, rfl⟩ := List.mem_map.mp (List.mem_filter.mp hline).1
    exact hlines raw hraw
  rw [runScript_store, runScript_store, hsplit]
  split
  · exact Progress.runLines_unfinished _ _ hbegin hrest
  · rfl

/-- An insertion after `begin` is dropped, whatever follows it. -/
theorem unfinished_insertion_dropped :
    let d := (Database.empty.runCommand "CREATE CLASS T").2
    let script := "INSERT INTO T SET a = 1\r\n"
    let whole := "INSERT INTO T SET a = 1\n begin \nINSERT INTO T SET a = 2\nBEGIN\nnonsense"
    let lines := ["INSERT INTO T SET a = 2".toList, "BEGIN".toList, "nonsense".toList]
    Text.lines whole.toList = Text.lines script.toList ++ " begin ".toList :: lines ∧
      Progress.isMarker "BEGIN" (Text.trim " begin ".toList) = true ∧
      (∀ line ∈ lines, Progress.isMarker "COMMIT" (Text.trim line) = false) ∧
      (d.runScript "sql" whole).2.store = (d.runScript "sql" script).2.store := by
  intro d script whole lines
  have hwhole : Text.lines whole.toList =
      Text.lines script.toList ++ " begin ".toList :: lines := by decide +kernel
  have hbegin : Progress.isMarker "BEGIN" (Text.trim " begin ".toList) = true := by
    decide +kernel
  have hlines : ∀ line ∈ lines, Progress.isMarker "COMMIT" (Text.trim line) = false := by
    decide +kernel
  exact ⟨hwhole, hbegin, hlines, runScript_unfinished "sql" d hwhole hbegin hlines⟩

end Database

end DocumentClient.Memory
