import DocumentClient.Proofs.FailedCommands
import DocumentClient.Proofs.RecordFields
import DocumentClient.Proofs.StoreSteps

/-!
# The records that a statement touches

A selection, a deletion and an update of a class with the same condition are about the same
records, its targets (`mem_targets`). A selection returns them. A deletion takes them out by their
places, from the last to the first, and leaves the other records (`delete_eq`). An update works on a
list of places that is made before the first record is changed, so it sets the fields of all
targets, also where that makes the condition false or true of a record
(`records_assignAt_targetPlaces`). `run_targets` says all of this about the statements.
-/

namespace DocumentClient.Memory.Store

variable {s : Store} {className : String} {condition : Option Assignment}

/-! ## Targets and their places -/

/-- A record is a target if it is of the class and holds what the condition asks for. -/
theorem isTarget_iff {r : Record} : isTarget className condition r = true ↔
    r.className = some className ∧ ∀ field value, condition = some (field, value) →
      ∃ held, r.get? field = some held ∧ held.equals value = true := by
  have hcondition : ∀ field value, Value.equalOptions (r.get? field) (some value) = true ↔
      ∃ held, r.get? field = some held ∧ held.equals value = true := by
    intro field value
    cases r.get? field with
    | none => simp [Value.equalOptions]
    | some held => simp [Value.equalOptions]
  cases condition with
  | none => simp [isTarget]
  | some condition =>
      obtain ⟨field, value⟩ := condition
      rw [isTarget, Bool.and_eq_true, beq_iff_eq, hcondition]
      refine and_congr_right fun _ => ⟨?_, fun h => h field value rfl⟩
      intro h other x hsame
      cases hsame
      exact h

/-- The targets are the records of the class that have the value of the condition. -/
theorem mem_targets {r : Record} : r ∈ s.targets className condition ↔
    r ∈ s.records ∧ r.className = some className ∧
      ∀ field value, condition = some (field, value) →
        ∃ held, r.get? field = some held ∧ held.equals value = true := by
  rw [targets, List.mem_filter, isTarget_iff]

/-- The places of the targets are where targets stand. -/
theorem mem_targetPlaces {place : Nat} : place ∈ s.targetPlaces className condition ↔
    ∃ r, s.records[place]? = some r ∧ isTarget className condition r = true := by
  simp only [targetPlaces, List.mem_map, List.mem_filter, Prod.exists, List.mem_zipIdx_iff_getElem?]
  constructor
  · rintro ⟨r, other, ⟨hr, htarget⟩, rfl⟩
    exact ⟨r, hr, htarget⟩
  · rintro ⟨r, hr, htarget⟩
    exact ⟨r, place, ⟨hr, htarget⟩, rfl⟩

/-- Setting fields at the places of the targets sets them in the targets and in no other record. -/
theorem records_assignAt_targetPlaces (s : Store) (className : String)
    (condition : Option Assignment) (assignments : List Assignment) :
    (s.assignAt assignments (s.targetPlaces className condition)).records =
      s.records.map fun r =>
        if isTarget className condition r then r.setAll assignments else r := by
  refine List.ext_getElem? fun place => ?_
  rw [getElem?_assignAt, List.getElem?_map]
  cases hr : s.records[place]? with
  | none => rfl
  | some r =>
      rw [Option.map_some, Option.map_some]
      congr 1
      by_cases htarget : isTarget className condition r = true
      · rw [if_pos htarget, if_pos (mem_targetPlaces.mpr ⟨r, hr, htarget⟩)]
      · have hplace : place ∉ s.targetPlaces className condition := by
          intro hmem
          obtain ⟨other, hother, hothers⟩ := mem_targetPlaces.mp hmem
          rw [hr] at hother
          obtain rfl := Option.some.inj hother
          exact htarget hothers
        rw [if_neg htarget, if_neg hplace]

/-! ## Statements -/

/-- Nothing but the records is different. -/
structure SameButRecords (s t : Store) : Prop where
  catalog : t.catalog = s.catalog
  nextPositions : t.nextPositions = s.nextPositions
  nextPropertyId : t.nextPropertyId = s.nextPropertyId

/-- An update changes only records, and if it succeeds, it has set the fields of its targets. -/
theorem update_targets (s : Store) (className : String) (assignments : List Assignment)
    (condition : Option Assignment) :
    s.SameButRecords (s.update className assignments condition).2 ∧
      ∀ outcome, (s.update className assignments condition).1 = .ok outcome →
        outcome = .written (s.targets className condition).length ∧
        (s.update className assignments condition).2.records = s.records.map fun r =>
          if isTarget className condition r then r.setAll assignments else r := by
  rw [update]
  rcases updateEach_cases s assignments (s.nodup_targetPlaces className condition) with
    hpassed | ⟨done, place, error, hstop⟩
  · rw [hpassed]
    refine ⟨⟨rfl, rfl, rfl⟩, fun outcome houtcome => ?_⟩
    rw [← length_targetPlaces]
    exact ⟨(Except.ok.inj houtcome).symm, records_assignAt_targetPlaces ..⟩
  · rw [hstop.updateEach_eq]
    refine ⟨⟨rfl, rfl, rfl⟩, fun outcome houtcome => ?_⟩
    cases houtcome

/-- The statements about a class, given by any name of it, and a condition are about the same
records. -/
structure AgreeOnTargets (s : Store) (name : String) (conditionText : Option (List Char))
    (className : String) (condition : Option Assignment) : Prop where
  /-- The targets stand in the order of the store, and are the records of the class that have the
  value of the condition. -/
  order : (s.targets className condition).Sublist s.records
  targets : ∀ r, r ∈ s.targets className condition ↔
    r ∈ s.records ∧ r.className = some className ∧
      ∀ field value, condition = some (field, value) →
        ∃ held, r.get? field = some held ∧ held.equals value = true
  select : s.run (.select name conditionText) = (.ok (.rows (s.targets className condition)), s)
  /-- A deletion leaves the other records, in order. They are the ones that are left when the
  targets are taken out one by one, from the last place to the first. -/
  delete : ∃ after, s.run (.delete name conditionText) =
      (.ok (.written (s.targets className condition).length), after) ∧
    after.records = (s.records.filter fun r => !isTarget className condition r) ∧
    after.records = (s.targetPlaces className condition).foldr
      (fun place rest => rest.eraseIdx place) s.records ∧
    s.SameButRecords after
  /-- An update that succeeds sets the fields of each target, one after another, and keeps the other
  records and the order of all. -/
  update : ∀ text assignments, readAssignments text = .ok assignments →
    ∃ answer after, s.run (.update name text conditionText) = (answer, after) ∧
      (∀ outcome, answer = .ok outcome →
        outcome = .written (s.targets className condition).length ∧
        after.records = s.records.map fun r =>
          if isTarget className condition r then r.setAll assignments else r) ∧
      (∀ r ∈ s.targets className condition, r.Assigned assignments (r.setAll assignments)) ∧
      s.SameButRecords after

/-- A selection, a deletion and an update with the same condition agree on which records they
touch, and leave everything else as it is. -/
theorem run_targets (s : Store) {name className : String} {conditionText : Option (List Char)}
    {condition : Option Assignment} (hclass : s.className name = .ok className)
    (hcondition : readCondition? conditionText = .ok condition) :
    s.AgreeOnTargets name conditionText className condition where
  order := List.filter_sublist
  targets _ := mem_targets
  select := by
    simp [run, hclass, hcondition, bind, Except.bind, pure, Except.pure, Except.map]
  delete := by
    refine ⟨(s.delete className condition).2, ?_, ?_, rfl, rfl, rfl, rfl⟩
    · simp [run, hclass, hcondition, bind, Except.bind, pure, Except.pure, Store.delete,
        length_targetPlaces]
    · rw [delete_eq]
  update := by
    intro text assignments hassignments
    have hrun := run_update (s := s) (.intro hclass hassignments hcondition)
    obtain ⟨hframe, hdone⟩ := s.update_targets className assignments condition
    exact ⟨_, _, hrun, hdone, fun r _ => r.assigned_setAll assignments, hframe⟩

/-- Two records under a unique index, of which one has the value of the condition. -/
theorem run_targets_numbered :
    let s := numbered.store
    let conditionText := some "a = 2".toList
    s.className "t" = .ok "T" ∧
      ∃ condition, readCondition? conditionText = .ok condition ∧
        (s.targets "T" condition).map (·.rid) = [some ⟨10, 1⟩] ∧
        s.AgreeOnTargets "t" conditionText "T" condition := by
  intro s conditionText
  have hclass : s.className "t" = .ok "T" := by decide +kernel
  cases hread : readCondition? conditionText with
  | error error =>
      have hok : (readCondition? conditionText).isOk = true := by decide +kernel
      rw [hread] at hok
      cases hok
  | ok condition =>
      have htarget : (readCondition? conditionText).toOption.map (fun condition =>
          (s.targets "T" condition).map (·.rid)) = some [some ⟨10, 1⟩] := by
        decide +kernel
      rw [hread] at htarget
      exact ⟨hclass, condition, rfl, Option.some.inj htarget, s.run_targets hclass hread⟩

end DocumentClient.Memory.Store
