import DocumentClient.Proofs.TouchedRecords
import Mathlib.Data.List.Forall2

/-!
# What statements about records do

A `DataStatement` is an insertion, an update, a deletion or a selection, with the values that are
written in it. `Performs` says what it does to the records of a class, and that it fails only where
a unique index forbids a record (`Forbids`). The statements of the engine do that
(`performs_insert`, `performs_update`, `performs_delete`, `performs_select`).
-/

namespace DocumentClient.Memory

/-- The statements about the records of a class. -/
inductive DataStatement where
  | insert (assignments : List Assignment)
  | update (assignments : List Assignment) (condition : Option Assignment)
  | delete (condition : Option Assignment)
  | select (condition : Option Assignment)

namespace Store

variable {s : Store} {className : String}

/-! ## Forbidden records -/

/-- A unique index forbids a record of a class: another record of the class than the one at place
`skip` has the same values in the fields of the index. -/
structure Forbids (s : Store) (className : String) (r : Record) (skip : Option Nat) (i : Index) :
    Prop where
  index : i ∈ s.catalog.indexesOf className
  unique : i.kind.isUnique = true
  taken : ∃ place other, s.records[place]? = some other ∧ other.className = some className ∧
    some place ≠ skip ∧
    ∀ field ∈ i.fields, Value.equalOptions (other.get? field) (r.get? field) = true

/-- The error of a forbidden record. -/
def duplicateKey (className : String) (i : Index) : EngineError :=
  .execution ("Cannot index record " ++ className ++ ": found duplicated key in index '" ++
    i.name ++ "'")

/-- A key is taken if some other record of the class holds equal values in every field of the
index. -/
theorem isTaken_iff {i : Index} {r : Record} {skip : Option Nat} :
    s.isTaken className i r skip = true ↔
      ∃ place other, s.records[place]? = some other ∧ other.className = some className ∧
        some place ≠ skip ∧
        ∀ field ∈ i.fields, Value.equalOptions (other.get? field) (r.get? field) = true := by
  simp only [isTaken, List.any_eq_true, Prod.exists, List.mem_zipIdx_iff_getElem?, Bool.and_eq_true,
    beq_iff_eq, bne_iff_ne, equalKeys_indexKey_iff, SameKey]
  constructor
  · rintro ⟨other, place, hother, ⟨hclass, hskip⟩, hkey⟩
    exact ⟨place, other, hother, hclass, hskip, hkey⟩
  · rintro ⟨place, other, hother, hclass, hskip, hkey⟩
    exact ⟨other, place, hother, ⟨hclass, hskip⟩, hkey⟩

/-- A record is checked successfully, or an index forbids it. -/
theorem checkUnique_cases (s : Store) {r : Record} (skip : Option Nat)
    (hclass : r.className = some className) :
    (s.checkUnique r skip = .ok () ∧ ∀ i, ¬ s.Forbids className r skip i) ∨
      ∃ i, s.Forbids className r skip i ∧
        s.checkUnique r skip = .error (duplicateKey className i) := by
  have hconflict : s.conflict? r skip = ((s.catalog.indexesOf className).find? fun i =>
      i.kind.isUnique && s.isTaken className i r skip).map fun i => (className, i) := by
    simp only [conflict?, hclass]
  cases hfind : (s.catalog.indexesOf className).find? fun i =>
      i.kind.isUnique && s.isTaken className i r skip with
  | none =>
      rw [hfind, Option.map_none] at hconflict
      refine .inl ⟨by simp only [checkUnique, hconflict], fun i hforbids => ?_⟩
      have hfree := List.find?_eq_none.mp hfind i hforbids.index
      rw [hforbids.unique, isTaken_iff.mpr hforbids.taken] at hfree
      exact hfree rfl
  | some i =>
      rw [hfind, Option.map_some] at hconflict
      have hfound := List.find?_some hfind
      rw [Bool.and_eq_true] at hfound
      refine .inr ⟨i, ⟨List.mem_of_find?_eq_some hfind, hfound.1, isTaken_iff.mp hfound.2⟩, ?_⟩
      simp only [checkUnique, hconflict, duplicateKey]

/-! ## Statements -/

/-- `s.Performs className statement answer after` says that the answer and the store `after` are
what the statement asks for, or that a unique index forbids it. -/
inductive Performs (s : Store) (className : String) :
    DataStatement → Except EngineError Outcome → Store → Prop where
  /-- A new record has the assigned fields. -/
  | insert (assignments : List Assignment) (r : Record)
      (hassigned : (RecordOf.ofClass className).Assigned assignments r)
      (hfree : ∀ i, ¬ s.Forbids className r none i) :
      Performs s className (.insert assignments) (.ok (.written 1)) (s.withRecord className r)
  | insertForbidden (assignments : List Assignment) (r : Record) (i : Index)
      (hassigned : (RecordOf.ofClass className).Assigned assignments r)
      (hforbids : s.Forbids className r none i) :
      Performs s className (.insert assignments) (.error (duplicateKey className i)) s
  /-- The targets have the assigned fields, and the other records are as before. -/
  | update (assignments : List Assignment) (condition : Option Assignment) (after : Store)
      (hframe : s.SameButRecords after)
      (hrecords : List.Forall₂ (fun r new =>
        if isTarget className condition r then r.Assigned assignments new else new = r)
        s.records after.records)
      (hfree : ∀ done place r i, done ++ [place] <+: s.targetPlaces className condition →
        s.records[place]? = some r →
        ¬ (s.assignAt assignments done).Forbids className (r.setAll assignments) (some place) i) :
      Performs s className (.update assignments condition)
        (.ok (.written (s.targets className condition).length)) after
  /-- The targets before the forbidden one have been changed. -/
  | updateForbidden (assignments : List Assignment) (condition : Option Assignment)
      (done : List Nat) (place : Nat) (r new : Record) (i : Index)
      (horder : done ++ [place] <+: s.targetPlaces className condition)
      (hr : s.records[place]? = some r) (hassigned : r.Assigned assignments new)
      (hforbids : (s.assignAt assignments done).Forbids className new (some place) i) :
      Performs s className (.update assignments condition) (.error (duplicateKey className i))
        (s.assignAt assignments done)
  /-- The other records are left, in order. -/
  | delete (condition : Option Assignment) (after : Store) (hframe : s.SameButRecords after)
      (hrecords : after.records = s.records.filter fun r => !isTarget className condition r) :
      Performs s className (.delete condition)
        (.ok (.written (s.targets className condition).length)) after
  | select (condition : Option Assignment) :
      Performs s className (.select condition) (.ok (.rows (s.targets className condition))) s

/-- A statement that is performed is not refused as one that cannot be read. -/
theorem Performs.ne_parse {statement : DataStatement} {answer : Except EngineError Outcome}
    {after : Store} (h : s.Performs className statement answer after) (message : String) :
    answer ≠ .error (.parse message) := by
  cases h with
  | insertForbidden | updateForbidden => exact fun hparse => nomatch Except.error.inj hparse
  | insert | update | delete | select => exact fun hparse => nomatch hparse

variable {name : String} {text : List Char} {conditionText : Option (List Char)}
  {assignments : List Assignment} {condition : Option Assignment}

/-- An insertion whose assignments are read performs its statement. -/
theorem performs_insert (hclass : s.className name = .ok className)
    (hassignments : readAssignments text = .ok assignments) :
    s.Performs className (.insert assignments) (s.run (.insert name text)).1
      (s.run (.insert name text)).2 := by
  have hassigned := (RecordOf.ofClass className).assigned_setAll assignments
  have hname : ((RecordOf.ofClass className : Record).setAll assignments).className =
      some className := hassigned.className
  simp only [run, hclass, hassignments, bind, Except.bind]
  rcases s.checkUnique_cases none hname with ⟨hcheck, hfree⟩ | ⟨i, hforbids, hcheck⟩
  · have hinsert : s.insert className assignments =
        .ok (s.withRecord className ((RecordOf.ofClass className).setAll assignments)) := by
      rw [insert, hcheck]
      rfl
    rw [hinsert]
    exact .insert assignments _ hassigned hfree
  · have hinsert : s.insert className assignments = .error (duplicateKey className i) := by
      rw [insert, hcheck]
      rfl
    rw [hinsert]
    exact .insertForbidden assignments _ i hassigned hforbids

/-- An update that is not stopped has updated each record after the ones before it. -/
theorem updateAt_of_passed {places done : List Nat} {place : Nat} (hnodup : places.Nodup)
    (hpassed : (updateEach assignments places s).1 = .ok ()) (horder : done ++ [place] <+: places) :
    ∃ after, (s.assignAt assignments done).updateAt assignments place = .ok after := by
  obtain ⟨rest, rfl⟩ := horder
  have hdone : done.Nodup := (List.nodup_append.mp (List.nodup_append.mp hnodup).1).1
  rw [List.append_assoc, updateEach_append] at hpassed
  rcases updateEach_cases s assignments hdone with hfirst | ⟨earlier, other, error, hstop⟩
  · rw [hfirst] at hpassed
    cases hupdate : (s.assignAt assignments done).updateAt assignments place with
    | ok after => exact ⟨after, rfl⟩
    | error error =>
        simp only [List.singleton_append, updateEach, hupdate] at hpassed
        cases hpassed
  · rw [hstop.updateEach_eq] at hpassed
    cases hpassed

/-- The next target of an update is as it was, and is updated unless an index forbids it. -/
theorem updateAt_next_cases {done : List Nat} {place : Nat} {r : Record}
    (horder : done ++ [place] <+: s.targetPlaces className condition)
    (hr : s.records[place]? = some r) :
    ((∃ after, (s.assignAt assignments done).updateAt assignments place = .ok after) ∧ ∀ i,
        ¬ (s.assignAt assignments done).Forbids className (r.setAll assignments) (some place) i) ∨
      ∃ i, (s.assignAt assignments done).Forbids className (r.setAll assignments) (some place) i ∧
        (s.assignAt assignments done).updateAt assignments place =
          .error (duplicateKey className i) := by
  have hmem : place ∈ s.targetPlaces className condition :=
    horder.subset (List.mem_append_right _ List.mem_cons_self)
  obtain ⟨target, htarget, hclass⟩ := mem_targetPlaces.mp hmem
  obtain rfl := Option.some.inj (hr.symm.trans htarget)
  have hname : (r.setAll assignments).className = some className := by
    rw [RecordOf.setAll_className, (isTarget_iff.mp hclass).1]
  have hfresh : place ∉ done := by
    intro hdone
    have hnodup := (nodup_targetPlaces s className condition).sublist horder.sublist
    exact (List.nodup_append.mp hnodup).2.2 place hdone place List.mem_cons_self rfl
  have hsame : (s.assignAt assignments done).records[place]? = some r := by
    rw [getElem?_assignAt, hr, Option.map_some, if_neg hfresh]
  rcases (s.assignAt assignments done).checkUnique_cases (some place) hname with
    ⟨hcheck, hfree⟩ | ⟨i, hforbids, hcheck⟩
  · exact .inl ⟨⟨_, by simp only [updateAt, hsame, hcheck]; rfl⟩, hfree⟩
  · exact .inr ⟨i, hforbids, by simp only [updateAt, hsame, hcheck]; rfl⟩

/-- An update whose assignments and condition are read performs its statement. -/
theorem performs_update (hclass : s.className name = .ok className)
    (hassignments : readAssignments text = .ok assignments)
    (hcondition : readCondition? conditionText = .ok condition) :
    s.Performs className (.update assignments condition)
      (s.run (.update name text conditionText)).1
      (s.run (.update name text conditionText)).2 := by
  have hnodup := s.nodup_targetPlaces className condition
  rw [run_update (.intro hclass hassignments hcondition), update]
  rcases updateEach_cases s assignments hnodup with hpassed | ⟨done, place, error, hstop⟩
  · have hfree : ∀ done place r i, done ++ [place] <+: s.targetPlaces className condition →
        s.records[place]? = some r → ¬ (s.assignAt assignments done).Forbids className
          (r.setAll assignments) (some place) i := by
      intro done place r i horder hr
      obtain ⟨after, hafter⟩ := updateAt_of_passed hnodup (congrArg Prod.fst hpassed) horder
      rcases updateAt_next_cases horder hr with ⟨-, hfree⟩ | ⟨j, -, herror⟩
      · exact hfree i
      · rw [hafter] at herror
        cases herror
    rw [hpassed, length_targetPlaces]
    refine .update assignments condition _ ⟨rfl, rfl, rfl⟩ ?_ hfree
    rw [records_assignAt_targetPlaces, List.forall₂_map_right_iff, List.forall₂_same]
    intro r hr
    split
    · exact r.assigned_setAll assignments
    · rfl
  · have hmem : place ∈ s.targetPlaces className condition :=
      hstop.order.subset (List.mem_append_right _ List.mem_cons_self)
    obtain ⟨r, hr, -⟩ := mem_targetPlaces.mp hmem
    rw [hstop.updateEach_eq]
    rcases updateAt_next_cases hstop.order hr with ⟨⟨after, hafter⟩, -⟩ | ⟨i, hforbids, herror⟩
    · have hforbidden := hstop.forbidden
      rw [hafter] at hforbidden
      cases hforbidden
    · obtain rfl := Except.error.inj (hstop.forbidden.symm.trans herror)
      exact .updateForbidden assignments condition done place r _ i hstop.order hr
        (r.assigned_setAll assignments) hforbids

/-- A deletion whose condition is read performs its statement. -/
theorem performs_delete (hclass : s.className name = .ok className)
    (hcondition : readCondition? conditionText = .ok condition) :
    s.Performs className (.delete condition) (s.run (.delete name conditionText)).1
      (s.run (.delete name conditionText)).2 := by
  simp only [run, hclass, hcondition, bind, Except.bind, pure, Except.pure, delete_eq,
    length_targetPlaces]
  exact .delete condition _ ⟨rfl, rfl, rfl⟩ rfl

/-- A selection whose condition is read performs its statement. -/
theorem performs_select (hclass : s.className name = .ok className)
    (hcondition : readCondition? conditionText = .ok condition) :
    s.Performs className (.select condition) (s.run (.select name conditionText)).1
      (s.run (.select name conditionText)).2 := by
  simp only [run, hclass, hcondition, bind, Except.bind, pure, Except.pure, Except.map]
  exact .select condition

end Store

end DocumentClient.Memory
