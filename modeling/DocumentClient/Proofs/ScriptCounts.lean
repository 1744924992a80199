import DocumentClient.Proofs.CommitAtomicity
import DocumentClient.Proofs.DatabaseRuns
import DocumentClient.Proofs.StoreSteps

/-!
# What the count of a script counts

A script answers with the number of records that its statements wrote, all of them taken together.
Not all of these records are in the store afterwards: a transaction that is open when another one
begins, or when the script ends, is dropped with all that its statements did. `runLines_lasting`
says that the store is the work of the other statements alone, and `runScript_count` that the count
exceeds theirs by what the dropped statements wrote.

The count is a number of 64 bits, which is enough: it is at most the number of lines times the
number of records that there can be (`runScript_count_le`).
-/

namespace DocumentClient.Memory

/-- How many records were written. -/
def Outcome.count : Outcome → Nat
  | .written count => count
  | .rows _ => 0

namespace Moment

/-- How many records the statement of a moment wrote, if it has one. -/
def written (m : Moment) : Nat :=
  match m.action with
  | .apply statement =>
    match (m.before.current.apply statement).1 with
    | .ok outcome => outcome.count
    | .error _ => 0
  | _ => 0

/-- The statement of a moment, if it has one. -/
def command? (m : Moment) : Option String :=
  match m.action with
  | .apply statement => some (String.ofList statement)
  | _ => none

end Moment

/-- How many records the statements of some moments wrote. -/
def writtenIn (moments : List Moment) : Nat :=
  moments.foldr (fun m count => m.written + count) 0

/-- Whether the next marker is a commit. -/
def commitsNext : List Moment → Bool
  | [] => false
  | m :: later =>
    match m.action with
    | .begin => false
    | .commit => true
    | .apply _ => commitsNext later

/-- The moments whose statements last, or those whose statements do not. A statement lasts if no
transaction is open, or if the open one is committed before another begins. -/
def settled (lasts : Bool) : (isOpen : Bool) → List Moment → List Moment
  | _, [] => []
  | isOpen, m :: later =>
    match m.action with
    | .begin => settled lasts true later
    | .commit => settled lasts false later
    | .apply _ =>
      if (!isOpen || commitsNext later) = lasts then m :: settled lasts isOpen later
      else settled lasts isOpen later

/-- The moments of a script whose statements last. -/
def lasting (moments : List Moment) : List Moment :=
  settled true false moments

/-- The moments of a script whose statements are dropped with their transaction. -/
def dropped (moments : List Moment) : List Moment :=
  settled false false moments

/-- Nothing was written exactly if no moment wrote. -/
theorem writtenIn_eq_zero_iff {moments : List Moment} :
    writtenIn moments = 0 ↔ ∀ m ∈ moments, m.written = 0 := by
  induction moments with
  | nil => simp [writtenIn]
  | cons m later ih =>
      rw [List.forall_mem_cons, ← ih]
      exact Nat.add_eq_zero_iff

/-- What is written is written by statements that last or by statements that do not. -/
theorem writtenIn_settled (isOpen : Bool) (moments : List Moment) :
    writtenIn moments =
      writtenIn (settled true isOpen moments) + writtenIn (settled false isOpen moments) := by
  induction moments generalizing isOpen with
  | nil => rfl
  | cons m later ih =>
      show m.written + writtenIn later = _
      unfold settled
      cases haction : m.action with
      | begin =>
          have hnone : m.written = 0 := by rw [Moment.written, haction]
          rw [hnone, Nat.zero_add]
          exact ih true
      | commit =>
          have hnone : m.written = 0 := by rw [Moment.written, haction]
          rw [hnone, Nat.zero_add]
          exact ih false
      | apply statement =>
          rw [ih isOpen]
          cases hlasts : !isOpen || commitsNext later with
          | true =>
              simp only [writtenIn, if_true, Bool.true_eq_false, if_false, List.foldr_cons]
              omega
          | false =>
              simp only [writtenIn, if_true, Bool.false_eq_true, if_false, List.foldr_cons]
              omega

/-- A statement adds at most one record, and writes at most one or all that there are. -/
theorem Store.Transition.bounded {s after : Store} {statement : Statement}
    {answer : Except EngineError Outcome} (h : s.Transition statement answer after) :
    after.records.length ≤ s.records.length + 1 ∧
      ∀ outcome, answer = .ok outcome → outcome.count ≤ s.records.length + 1 := by
  have hplaces : ∀ className condition,
      (s.targetPlaces className condition).length ≤ s.records.length := by
    intro className condition
    rw [Store.length_targetPlaces]
    exact List.length_filter_le _ _
  cases h with
  | refuse | stop =>
      refine ⟨?_, fun outcome houtcome => nomatch houtcome⟩
      simp [Store.assignAt]
  | createClass | createProperty | createIndex =>
      refine ⟨Nat.le_succ _, fun outcome houtcome => ?_⟩
      cases houtcome
      exact Nat.zero_le _
  | insert =>
      refine ⟨Nat.le_of_eq List.length_append, fun outcome houtcome => ?_⟩
      cases houtcome
      exact Nat.succ_le_succ (Nat.zero_le _)
  | update =>
      refine ⟨by simp [Store.assignAt], fun outcome houtcome => ?_⟩
      cases houtcome
      exact Nat.le_succ_of_le (hplaces _ _)
  | delete =>
      refine ⟨Nat.le_succ_of_le (List.length_filter_le _ _), fun outcome houtcome => ?_⟩
      cases houtcome
      exact Nat.le_succ_of_le (hplaces _ _)
  | select =>
      refine ⟨Nat.le_succ _, fun outcome houtcome => ?_⟩
      cases houtcome
      exact Nat.zero_le _

/-- So does a command. -/
theorem Store.apply_bounded (s : Store) (command : List Char) :
    (s.apply command).2.records.length ≤ s.records.length + 1 ∧
      ∀ outcome, (s.apply command).1 = .ok outcome → outcome.count ≤ s.records.length + 1 := by
  cases hread : Statement.read? (Store.statementText command) with
  | none =>
      rw [Store.apply_of_unread hread]
      refine ⟨Nat.le_succ _, fun outcome houtcome => ?_⟩
      simp only [Store.apply, hread] at houtcome
      cases houtcome
  | some statement =>
      rw [Store.apply_of_read hread]
      exact (s.transition_run statement).bounded

namespace Progress

variable {p q : Progress} {line : List Char} {lines : List (List Char)}

/-! ## Lines that succeed -/

/-- Replacing the store in use counts no writes. -/
theorem withCurrent_count (p : Progress) (s : Store) : (p.withCurrent s).count = p.count := by
  unfold withCurrent
  split <;> rfl

/-- A line that succeeds is a marker, or a statement whose outcome goes into the store and the
count. -/
theorem runLine_ok (h : p.runLine line = (.ok (), q)) :
    (Action.ofLine line = .begin ∧ q = p.beginTransaction) ∨
      (Action.ofLine line = .commit ∧ q = p.commitTransaction) ∨
      Action.ofLine line = .apply line ∧ ∃ outcome next,
        p.current.apply line = (.ok outcome, next) ∧
        q = { p.withCurrent next with count := p.count + outcome.count } := by
  unfold runLine at h
  unfold Action.ofLine
  by_cases hbegin : isMarker "BEGIN" line = true
  · rw [if_pos hbegin] at h ⊢
    exact .inl ⟨rfl, (Prod.mk.inj h).2.symm⟩
  · rw [if_neg hbegin] at h ⊢
    by_cases hcommit : isMarker "COMMIT" line = true
    · rw [if_pos hcommit] at h ⊢
      exact .inr (.inl ⟨rfl, (Prod.mk.inj h).2.symm⟩)
    · rw [if_neg hcommit] at h ⊢
      refine .inr (.inr ⟨rfl, ?_⟩)
      unfold applyStatement at h
      rcases hrun : p.current.apply line with ⟨error | outcome, next⟩
      · rw [hrun] at h
        cases h
      · rw [hrun] at h
        refine ⟨outcome, next, rfl, ?_⟩
        cases outcome with
        | written count => exact (Prod.mk.inj h).2.symm
        | rows records =>
            rw [← (Prod.mk.inj h).2]
            show p.withCurrent next = { p.withCurrent next with count := p.count + 0 }
            rw [Nat.add_zero, ← p.withCurrent_count next]

/-- The beginning of a transaction counts no writes. -/
theorem beginTransaction_count (p : Progress) : p.beginTransaction.count = p.count :=
  rfl

/-- The commit of a transaction counts no writes of its own. -/
theorem commitTransaction_count (p : Progress) : p.commitTransaction.count = p.count := by
  unfold commitTransaction
  split <;> rfl

/-- The count of lines that succeed goes up by what all of their statements wrote. -/
theorem runLines_count (h : p.runLines lines = (.ok (), q)) :
    q.count = p.count + writtenIn (p.moments lines) := by
  induction lines generalizing p with
  | nil =>
      cases h
      rfl
  | cons line lines ih =>
      rw [runLines] at h
      rcases hline : p.runLine line with ⟨error | _, next⟩
      · rw [hline] at h
        cases h
      · rw [hline] at h
        have hnext : next.count = p.count + Moment.written ⟨p, .ofLine line⟩ := by
          unfold Moment.written
          rcases runLine_ok hline with ⟨haction, rfl⟩ | ⟨haction, rfl⟩ | ⟨haction, hstatement⟩
          · rw [haction]
            exact p.beginTransaction_count
          · rw [haction]
            exact p.commitTransaction_count
          · obtain ⟨outcome, after, happly, rfl⟩ := hstatement
            rw [haction]
            simp only [happly]
        rw [ih h, hnext, Nat.add_assoc, moments, hline]
        rfl

/-! ## How much can be counted -/

/-- How far a script has come after some lines, on a store that had this many records. -/
structure Bounded (size lines : Nat) (p : Progress) : Prop where
  records : p.Everywhere fun s => s.records.length ≤ size + lines
  count : p.count ≤ lines * (size + lines)

/-- A script begins with the records of the live store, after no line. -/
theorem bounded_start (live : Store) : (start live).Bounded live.records.length 0 :=
  ⟨everywhere_start (Nat.le_refl _), Nat.zero_le _⟩

/-- A statement counts at most the records it finds and one more. -/
theorem applyStatement_count_le (p : Progress) (line : List Char) :
    (p.applyStatement line).2.count ≤ p.count + (p.current.records.length + 1) := by
  have hwritten := (p.current.apply_bounded line).2
  rw [applyStatement]
  rcases hrun : p.current.apply line with ⟨error | count | records, next⟩
  · exact Nat.le_trans (Nat.le_of_eq (p.withCurrent_count next)) (Nat.le_add_right _ _)
  · have hcount : count ≤ p.current.records.length + 1 := hwritten (.written count) (by rw [hrun])
    exact Nat.add_le_add_left hcount _
  · exact Nat.le_trans (Nat.le_of_eq (p.withCurrent_count next)) (Nat.le_add_right _ _)

/-- A line adds at most one record, and writes at most one or all that there are. -/
theorem Bounded.runLine {size done : Nat} (hp : p.Bounded size done) (line : List Char) :
    (p.runLine line).2.Bounded size (done + 1) := by
  have hcurrent : p.current.records.length ≤ size + done := hp.records.current
  have hgrow : done * (size + done) + (size + done + 1) ≤ (done + 1) * (size + (done + 1)) := by
    rw [Nat.succ_mul]
    have hmore : done * (size + done) ≤ done * (size + (done + 1)) :=
      Nat.mul_le_mul_left done (Nat.le_succ (size + done))
    omega
  have hcount := hp.count
  constructor
  case records =>
    rw [runLine_eq_act]
    refine (hp.records.mono fun s hs => Nat.le_succ_of_le hs).act fun statement _ => ?_
    have hnext := (p.current.apply_bounded statement).1
    show _ ≤ size + (done + 1)
    omega
  case count =>
    rcases p.runLine_cases line with ⟨-, hline⟩ | ⟨-, hline⟩ | hline
    · rw [hline, beginTransaction_count]
      omega
    · rw [hline, commitTransaction_count]
      omega
    · have hwritten := p.applyStatement_count_le line
      rw [hline]
      omega

/-- Bounds grow with the number of lines. -/
theorem Bounded.mono {size done more : Nat} (hp : p.Bounded size done) (h : done ≤ more) :
    p.Bounded size more where
  records := hp.records.mono fun _ hs => Nat.le_trans hs (Nat.add_le_add_left h size)
  count := Nat.le_trans hp.count (Nat.mul_le_mul h (Nat.add_le_add_left h size))

/-- Lines keep the bounds, each of them counted once. -/
theorem Bounded.runLines {size done : Nat} (lines : List (List Char)) (hp : p.Bounded size done) :
    (p.runLines lines).2.Bounded size (done + lines.length) := by
  induction lines generalizing p done with
  | nil => exact hp
  | cons line lines ih =>
      have hnext := hp.runLine line
      rw [Progress.runLines, List.length_cons]
      rcases hline : p.runLine line with ⟨error | _, next⟩
      · rw [hline] at hnext
        exact hnext.mono (by omega)
      · rw [hline] at hnext
        have hrest := ih hnext
        rwa [Nat.add_assoc, Nat.add_comm 1] at hrest

/-! ## The store afterwards -/

/-- The store that the statements which are to last start from: the working copy of a transaction
that is going to be committed, else the live store. -/
def foundation (p : Progress) (later : List Moment) : Store :=
  match p.working with
  | some s => if commitsNext later then s else p.live
  | none => p.live

/-- A statement does the same as a command of a database. -/
theorem runCommand_of_apply {s next : Store} {outcome : Outcome}
    (h : s.apply line = (.ok outcome, next)) (name : String) (scripts : Nat) :
    ∃ raw, (engine name).runCommand (String.ofList line) ⟨s, scripts⟩ =
      (.ok raw, ⟨next, scripts⟩) ∧ raw.affected = outcome.count := by
  simp only [engine, Database.runCommand, String.toList_ofList, h]
  cases outcome with
  | written count => exact ⟨.count count, rfl, rfl⟩
  | rows records => exact ⟨.records records, rfl, rfl⟩

/-- A line that succeeds leaves the foundation of the lines after it as it was, or it is a statement
that lasts and is carried out on it. -/
theorem foundation_cases {next : Progress} (h : p.runLine line = (.ok (), next))
    (later : List Moment) :
    (settled true p.working.isSome (⟨p, .ofLine line⟩ :: later) =
        settled true next.working.isSome later ∧
      p.foundation (⟨p, .ofLine line⟩ :: later) = next.foundation later) ∨
    ∃ outcome, settled true p.working.isSome (⟨p, .ofLine line⟩ :: later) =
        ⟨p, .ofLine line⟩ :: settled true next.working.isSome later ∧
      (p.foundation (⟨p, .ofLine line⟩ :: later)).apply line =
        (.ok outcome, next.foundation later) ∧
      Moment.command? ⟨p, .ofLine line⟩ = some (String.ofList line) ∧
      Moment.written ⟨p, .ofLine line⟩ = outcome.count := by
  obtain ⟨live, working, count⟩ := p
  rcases runLine_ok h with ⟨haction, rfl⟩ | ⟨haction, rfl⟩ | ⟨haction, outcome, after, happly, rfl⟩
  · have hnext : foundation ⟨live, some live, count⟩ later = live := ite_self _
    rw [haction]
    cases working with
    | none => exact .inl ⟨rfl, hnext.symm⟩
    | some s => exact .inl ⟨rfl, hnext.symm⟩
  · rw [haction]
    cases working with
    | none => exact .inl ⟨rfl, rfl⟩
    | some s => exact .inl ⟨rfl, rfl⟩
  · have hwritten : Moment.written ⟨⟨live, working, count⟩, .apply line⟩ = outcome.count := by
      unfold Moment.written
      simp only [happly]
    rw [haction]
    cases working with
    | none => exact .inr ⟨outcome, rfl, happly, rfl, hwritten⟩
    | some s =>
        cases hcommits : commitsNext later with
        | true =>
            have hfoundation : foundation ⟨live, some s, count⟩
                (⟨⟨live, some s, count⟩, .apply line⟩ :: later) = s := if_pos hcommits
            have hnext : foundation ⟨live, some after, count + outcome.count⟩ later = after :=
              if_pos hcommits
            refine .inr ⟨outcome, ?_, ?_, rfl, hwritten⟩
            · show (if (!true || commitsNext later) = true then _ else _) = _
              rw [hcommits]
              rfl
            · rw [hfoundation]
              exact happly.trans (congrArg (Prod.mk _) hnext.symm)
        | false =>
            refine .inl ⟨?_, ?_⟩
            · show (if (!true || commitsNext later) = true then _ else _) = _
              rw [hcommits]
              rfl
            · show (if commitsNext later = true then s else live) =
                if commitsNext later = true then after else live
              rw [hcommits]
              rfl

/-- The statements of a script that last do the same when they are run alone, as commands one after
another: they lead to the store that the script leaves, and write as much as they did in it. -/
theorem runLines_lasting (h : p.runLines lines = (.ok (), q)) (name : String) (scripts : Nat) :
    (engine name).runEach
        ((settled true p.working.isSome (p.moments lines)).filterMap Moment.command?)
        ⟨p.foundation (p.moments lines), scripts⟩ =
      (.ok (writtenIn (settled true p.working.isSome (p.moments lines))), ⟨q.live, scripts⟩) := by
  induction lines generalizing p with
  | nil =>
      cases h
      have hlive : q.foundation [] = q.live := by
        unfold foundation
        cases q.working <;> rfl
      show ((.ok 0, ⟨q.foundation [], scripts⟩) : Except EngineError Nat × Database) = _
      rw [hlive]
      rfl
  | cons line lines ih =>
      rw [runLines] at h
      rcases hline : p.runLine line with ⟨error | _, next⟩
      · rw [hline] at h
        cases h
      · rw [hline] at h
        have hrest := ih h
        have hmoments : p.moments (line :: lines) = ⟨p, .ofLine line⟩ :: next.moments lines := by
          rw [moments, hline]
        rw [hmoments]
        rcases foundation_cases hline (next.moments lines) with
          ⟨hsettled, hsame⟩ | ⟨outcome, hsettled, happly, hcommand, hwritten⟩
        · rw [hsettled, hsame]
          exact hrest
        · obtain ⟨raw, hraw, haffected⟩ := runCommand_of_apply happly name scripts
          rw [hsettled, List.filterMap_cons_some hcommand, Engine.runEach, hraw]
          simp only [hrest]
          show (Except.ok (raw.affected + _), _) = _
          rw [haffected, ← hwritten]
          rfl

end Progress

namespace Database

/-- A script that succeeds leaves the store that its lasting statements alone lead to when they are
run as commands one after another, and they write as much as they did in it. Its count is theirs
and that of the dropped statements together, so it is theirs exactly if no dropped statement wrote
anything. -/
theorem runScript_count (name language script : String) {d after : Database} {n : Int}
    (h : d.runScript language script = (.ok (.count n), after)) :
    let moments := d.momentsOf (.script language script)
    (engine name).runEach ((lasting moments).filterMap Moment.command?) d =
        (.ok (writtenIn (lasting moments)), ⟨after.store, d.scripts⟩) ∧
      n = writtenIn (lasting moments) + writtenIn (dropped moments) ∧
      (n = writtenIn (lasting moments) ↔ ∀ m ∈ dropped moments, m.written = 0) := by
  intro moments
  unfold runScript at h
  cases hlanguage : Text.eqIgnoringAsciiCase language "sql" with
  | false =>
      rw [hlanguage] at h
      cases h
  | true =>
      rw [hlanguage] at h
      rcases hrun : (Progress.start d.store).runLines (scriptLines script.toList) with
        ⟨error | _, q⟩
      · simp only [hrun] at h
        cases h
      · simp only [hrun] at h
        cases h
        have hmoments : moments =
            (Progress.start d.store).moments (scriptLines script.toList) := by
          show d.momentsOf (.script language script) = _
          rw [momentsOf, hlanguage, if_pos rfl]
        have hcount : q.count = writtenIn (lasting moments) + writtenIn (dropped moments) := by
          have htotal := Progress.runLines_count hrun
          have hstart : (Progress.start d.store).count = 0 := rfl
          rw [htotal, hstart, Nat.zero_add, ← hmoments]
          exact writtenIn_settled false moments
        rw [← writtenIn_eq_zero_iff, hcount]
        refine ⟨?_, Int.natCast_add _ _, ?_⟩
        · rw [hmoments]
          exact Progress.runLines_lasting hrun name d.scripts
        · rw [Int.natCast_inj]
          exact Nat.add_eq_left

/-- The count of a script is at most the number of its lines times the number of records that there
can be when its last line is run, so that 64 bits are enough for it. -/
theorem runScript_count_le {language script : String} {d after : Database} {n : Int}
    (h : d.runScript language script = (.ok (.count n), after)) :
    0 ≤ n ∧ n ≤ (scriptLines script.toList).length *
      (d.store.records.length + (scriptLines script.toList).length) := by
  unfold runScript at h
  split at h
  · cases h
  · have hbounded := (Progress.bounded_start d.store).runLines (scriptLines script.toList)
    rcases hrun : (Progress.start d.store).runLines (scriptLines script.toList) with
      ⟨error | _, q⟩
    · simp only [hrun] at h
      cases h
    · simp only [hrun] at h
      cases h
      rw [hrun, Nat.zero_add] at hbounded
      exact ⟨Int.natCast_nonneg _, by exact_mod_cast hbounded.count⟩

/-- A result that says that records were changed is a count. -/
theorem eq_count_of_affected {answer : Except EngineError RawResult} {count : Nat}
    (h : answer.toOption.map RawResult.affected = some (count + 1)) :
    answer = .ok (.count (count + 1 : Nat)) := by
  cases answer with
  | error error => cases h
  | ok raw =>
      cases raw with
      | count n =>
          have hn : n.toNat = count + 1 := Option.some.inj h
          have hcount : n = (count + 1 : Nat) := by omega
          rw [hcount]
      | _ => exact nomatch Option.some.inj h

/-- Insertions outside a transaction and in one that is committed, and then a transaction that only
reads. -/
theorem runScript_count_committed :
    let d := (Database.empty.runCommand "CREATE CLASS T").2
    let script :=
      "INSERT INTO T SET a = 1\nbegin\nINSERT INTO T SET a = 2\nCOMMIT\nBEGIN\nSELECT FROM T"
    let moments := d.momentsOf (.script "sql" script)
    d.runScript "sql" script = (.ok (.count 2), (d.runScript "sql" script).2) ∧
      (lasting moments).filterMap Moment.command? =
        ["INSERT INTO T SET a = 1", "INSERT INTO T SET a = 2"] ∧
      (engine "demo").runEach ["INSERT INTO T SET a = 1", "INSERT INTO T SET a = 2"] d =
        (.ok 2, ⟨(d.runScript "sql" script).2.store, d.scripts⟩) := by
  intro d script moments
  have hanswer : (d.runScript "sql" script).1 = .ok (.count 2) :=
    eq_count_of_affected (by decide +kernel)
  have hlasting : (lasting moments).filterMap Moment.command? =
      ["INSERT INTO T SET a = 1", "INSERT INTO T SET a = 2"] := by
    decide +kernel
  have hwritten : writtenIn (lasting moments) = 2 := by decide +kernel
  have hrun : d.runScript "sql" script = (.ok (.count 2), (d.runScript "sql" script).2) :=
    Prod.ext hanswer rfl
  have heach := (runScript_count "demo" "sql" script hrun).1
  rw [hlasting, hwritten] at heach
  exact ⟨hrun, hlasting, heach⟩

/-- The insertion of a transaction that is begun anew is counted, although the store does not have
its record. -/
theorem restarted_insertion_counted :
    let d := (Database.empty.runCommand "CREATE CLASS T").2
    let script := "BEGIN\nINSERT INTO T SET a = 1\nBEGIN\nCOMMIT\n"
    (d.runScript "sql" script).1 = .ok (.count 1) ∧
      (d.runScript "sql" script).2.store.records.length = 0 ∧
      writtenIn (lasting (d.momentsOf (.script "sql" script))) = 0 := by
  intro d script
  have hanswer : (d.runScript "sql" script).1 = .ok (.count 1) :=
    eq_count_of_affected (by decide +kernel)
  exact ⟨hanswer, by decide +kernel, by decide +kernel⟩

end Database

end DocumentClient.Memory
