import DocumentClient.Memory.Store
import Mathlib.Data.List.Induction

/-!
# The steps of a store

`Transition` lists everything that a statement can do to a store, and `transition_run` says that
nothing else happens. Only an update works on one record after another: `updateEach_cases` says
that it sets the fields of all its records at once, or is stopped by a unique index and leaves
the records before the forbidden one changed.
-/

namespace DocumentClient.Memory.Store

/-! ## Setting fields at several places -/

/-- The store with fields set in the records at some places. -/
def assignAt (s : Store) (assignments : List Assignment) (places : List Nat) : Store :=
  { s with records := s.records.mapIdx fun place r =>
      if place ∈ places then r.setAll assignments else r }

variable {s : Store} {assignments : List Assignment}

/-- Assignments reach the records at the places and no others. -/
theorem getElem?_assignAt (s : Store) (assignments : List Assignment) (places : List Nat)
    (place : Nat) :
    (s.assignAt assignments places).records[place]? =
      s.records[place]?.map fun r => if place ∈ places then r.setAll assignments else r :=
  List.getElem?_mapIdx

/-- A store in which only the records at the places are changed is the one with these fields. -/
theorem eq_assignAt {t : Store} {places : List Nat} (hcatalog : t.catalog = s.catalog)
    (hpositions : t.nextPositions = s.nextPositions) (hid : t.nextPropertyId = s.nextPropertyId)
    (hrecords : ∀ place, t.records[place]? =
      s.records[place]?.map fun r => if place ∈ places then r.setAll assignments else r) :
    t = s.assignAt assignments places := by
  have hlist : t.records = (s.assignAt assignments places).records :=
    List.ext_getElem? fun place => by rw [hrecords, getElem?_assignAt]
  obtain ⟨catalog, records, positions, id⟩ := t
  cases hcatalog
  cases hpositions
  cases hid
  cases hlist
  rfl

/-- Without places nothing is assigned. -/
theorem assignAt_nil (s : Store) (assignments : List Assignment) :
    s.assignAt assignments [] = s :=
  (eq_assignAt rfl rfl rfl fun place => by simp).symm

/-- Places can be taken one after another as long as none comes twice. -/
theorem assignAt_append {places others : List Nat} (h : ∀ place ∈ others, place ∉ places) :
    (s.assignAt assignments places).assignAt assignments others =
      s.assignAt assignments (places ++ others) := by
  refine eq_assignAt rfl rfl rfl fun place => ?_
  rw [getElem?_assignAt, getElem?_assignAt, Option.map_map]
  congr 1
  funext r
  by_cases hother : place ∈ others
  · simp [hother, h place hother]
  · simp [hother]

/-- Setting fields leaves a store as it was exactly if every record at the places holds them
already. -/
theorem assignAt_eq_self_iff {places : List Nat} :
    s.assignAt assignments places = s ↔
      ∀ place ∈ places, ∀ r, s.records[place]? = some r → r.setAll assignments = r := by
  constructor
  · intro h place hplace r hr
    have hget := getElem?_assignAt s assignments places place
    rw [h, hr, Option.map_some, if_pos hplace] at hget
    exact (Option.some.inj hget).symm
  · intro h
    refine (eq_assignAt rfl rfl rfl fun place => ?_).symm
    cases hr : s.records[place]? with
    | none => rfl
    | some r =>
        rw [Option.map_some]
        split
        · next hplace => rw [h place hplace r hr]
        · rfl

/-! ## Updates -/

/-- An update of one record sets its fields if no unique index forbids it. Where there is no
record, it does nothing. -/
theorem updateAt_cases {place : Nat} {after : Store}
    (h : s.updateAt assignments place = .ok after) :
    (s.records[place]? = none ∧ after = s) ∨
      ∃ r, s.records[place]? = some r ∧
        s.checkUnique (r.setAll assignments) (some place) = .ok () ∧
        after = { s with records := s.records.set place (r.setAll assignments) } := by
  unfold updateAt at h
  split at h
  · next hnone => exact .inl ⟨hnone, (Except.ok.inj h).symm⟩
  · next r hr =>
      cases hcheck : s.checkUnique (r.setAll assignments) (some place) with
      | error error =>
          simp only [hcheck] at h
          exact nomatch h
      | ok =>
          simp only [hcheck] at h
          exact .inr ⟨r, hr, hcheck, (Except.ok.inj h).symm⟩

/-- The update of one record is the setting of fields at its place. -/
theorem updateAt_ok {place : Nat} {after : Store}
    (h : s.updateAt assignments place = .ok after) : after = s.assignAt assignments [place] := by
  rcases updateAt_cases h with ⟨hnone, rfl⟩ | ⟨r, hr, -, rfl⟩
  · refine eq_assignAt rfl rfl rfl fun other => ?_
    by_cases hother : other = place
    · rw [hother, hnone]
      rfl
    · simp [hother]
  · refine eq_assignAt rfl rfl rfl fun other => ?_
    by_cases hother : other = place
    · rw [hother, hr]
      simp [(List.getElem?_eq_some_iff.mp hr).1]
    · simp [hother, Ne.symm hother]

/-- What the update of one record keeps, an update keeps, also one that is stopped. -/
theorem updateEach_kept {P : Store → Prop} {places : List Nat}
    (hplace : ∀ s place after, P s → s.updateAt assignments place = .ok after → P after)
    (hs : P s) : P (updateEach assignments places s).2 := by
  induction places generalizing s with
  | nil => exact hs
  | cons place places ih =>
      rw [updateEach]
      cases hupdate : s.updateAt assignments place with
      | ok after => exact ih (hplace s place after hs hupdate)
      | error error => exact hs

/-- Places are updated one after another, up to the first that fails. -/
theorem updateEach_append (assignments : List Assignment) (places others : List Nat)
    (s : Store) :
    updateEach assignments (places ++ others) s =
      match updateEach assignments places s with
      | (.ok (), middle) => updateEach assignments others middle
      | (.error error, middle) => (.error error, middle) := by
  induction places generalizing s with
  | nil => rfl
  | cons place places ih =>
      rw [List.cons_append, updateEach, updateEach]
      cases s.updateAt assignments place with
      | ok middle => exact ih middle
      | error error => rfl

/-- An update at some places sets the fields of the records at the first of them, `done`, and is
stopped by a unique index at the next one. -/
structure Stop (s : Store) (assignments : List Assignment) (places done : List Nat)
    (place : Nat) (error : EngineError) : Prop where
  order : done ++ [place] <+: places
  passed : updateEach assignments done s = (.ok (), s.assignAt assignments done)
  forbidden : (s.assignAt assignments done).updateAt assignments place = .error error

/-- An update that is stopped leaves the records before the forbidden one changed. -/
theorem Stop.updateEach_eq {places done : List Nat} {place : Nat} {error : EngineError}
    (h : s.Stop assignments places done place error) :
    updateEach assignments places s = (.error error, s.assignAt assignments done) := by
  obtain ⟨rest, rfl⟩ := h.order
  rw [List.append_assoc, updateEach_append, h.passed]
  simp only [List.singleton_append, updateEach, h.forbidden]

/-- An update at different places sets the fields of all records there, or is stopped. -/
theorem updateEach_cases (s : Store) (assignments : List Assignment) {places : List Nat}
    (hnodup : places.Nodup) :
    updateEach assignments places s = (.ok (), s.assignAt assignments places) ∨
      ∃ done place error, s.Stop assignments places done place error := by
  -- The last place is split off, because a stop among the others is a stop of the whole.
  induction places using List.reverseRecOn with
  | nil => exact .inl (by rw [assignAt_nil]; rfl)
  | append_singleton places place ih =>
      obtain ⟨hplaces, -, hdisjoint⟩ := List.nodup_append.mp hnodup
      rcases ih hplaces with hpassed | ⟨done, earlier, error, hstop⟩
      · cases hlast : (s.assignAt assignments places).updateAt assignments place with
        | error error =>
            exact .inr ⟨places, place, error, List.prefix_rfl, hpassed, hlast⟩
        | ok after =>
            have hfresh : ∀ other ∈ [place], other ∉ places := by
              intro other hother hmem
              exact hdisjoint other hmem place (List.mem_singleton.mpr rfl)
                (List.mem_singleton.mp hother)
            refine .inl ?_
            rw [updateEach_append, hpassed]
            simp only [updateEach, hlast]
            rw [updateAt_ok hlast, assignAt_append hfresh]
      · exact .inr ⟨done, earlier, error, hstop.order.trans (List.prefix_append _ _),
          hstop.passed, hstop.forbidden⟩

/-- No place is a target twice. -/
theorem nodup_targetPlaces (s : Store) (className : String) (condition : Option Assignment) :
    (s.targetPlaces className condition).Nodup := by
  have hsublist := (List.filter_sublist (p := fun entry : Record × Nat =>
    isTarget className condition entry.1) (l := s.records.zipIdx)).map (·.2)
  rw [List.zipIdx_map_snd] at hsublist
  exact hsublist.nodup List.nodup_range'

/-- There are as many places as targets. -/
theorem length_targetPlaces (s : Store) (className : String) (condition : Option Assignment) :
    (s.targetPlaces className condition).length = (s.targets className condition).length := by
  have htargets : s.targets className condition = (s.records.zipIdx.filter fun entry =>
      isTarget className condition entry.1).map (·.1) := by
    have hfilter := List.filter_map (p := isTarget className condition) (f := Prod.fst)
      (l := s.records.zipIdx)
    rw [List.zipIdx_map_fst] at hfilter
    exact hfilter
  rw [targetPlaces, List.length_map, htargets, List.length_map]

/-- Taking out the elements at some places from the last to the first leaves the others. -/
theorem eraseAll_places {α : Type} (p : α → Bool) (l : List α) :
    eraseAll ((l.zipIdx.filter fun entry => p entry.1).map (·.2)) l = l.filter fun a => !p a := by
  induction l with
  | nil => rfl
  | cons a l ih =>
      generalize hplaces : (l.zipIdx.filter fun entry => p entry.1).map (·.2) = places at ih
      -- The places behind the first element are one higher, and taking out there keeps it.
      have hshift : ((l.zipIdx 1).filter fun entry => p entry.1).map (·.2) =
          places.map (· + 1) := by
        rw [List.zipIdx_succ, List.filter_map, List.map_map, ← hplaces, List.map_map]
        rfl
      have hbehind : eraseAll (places.map (· + 1)) (a :: l) = a :: eraseAll places l := by
        rw [eraseAll, List.foldr_map, eraseAll]
        clear ih hplaces hshift
        induction places with
        | nil => rfl
        | cons place places ih => rw [List.foldr_cons, ih, List.foldr_cons, List.eraseIdx_cons_succ]
      rw [List.zipIdx_cons, Nat.zero_add, List.filter_cons, List.filter_cons]
      cases ha : p a with
      | true =>
          have hfirst : eraseAll (0 :: places.map (· + 1)) (a :: l) =
              (eraseAll (places.map (· + 1)) (a :: l)).eraseIdx 0 := rfl
          simp only [if_true, List.map_cons, hshift, hfirst, hbehind, ih]
          rfl
      | false =>
          simp only [Bool.false_eq_true, if_false, hshift, hbehind, ih]
          rfl

/-- A deletion keeps the records that are no targets. -/
theorem delete_eq (s : Store) (className : String) (condition : Option Assignment) :
    s.delete className condition = (.written (s.targetPlaces className condition).length,
      { s with records := s.records.filter fun r => !isTarget className condition r }) := by
  have hkept := eraseAll_places (isTarget className condition) s.records
  rw [delete, targetPlaces, hkept]

/-! ## Keys -/

/-- The first record has the values of the second one in all fields of the index. A field that is
absent is the same only as one that is absent. -/
def SameKey (i : Index) (a b : Record) : Prop :=
  ∀ field ∈ i.fields, Value.equalOptions (a.get? field) (b.get? field) = true

instance (i : Index) (a b : Record) : Decidable (SameKey i a b) :=
  inferInstanceAs (Decidable (∀ field ∈ i.fields, _))

/-- Keys are compared field by field. -/
theorem equalKeys_indexKey_iff {i : Index} {a b : Record} :
    equalKeys (indexKey i a) (indexKey i b) = true ↔ SameKey i a b := by
  rw [indexKey, indexKey, SameKey]
  induction i.fields with
  | nil => simp [equalKeys]
  | cons field fields ih => simp [equalKeys, ih]

/-! ## Statements -/

/-- The store with one more class. -/
def withClass (s : Store) (name : String) (superClass : Option String) : Store :=
  { s with catalog := { s.catalog with
      classes := s.catalog.classes ++ [{ name, superClass, properties := [] }] } }

/-- The store with one more property in a class. -/
def withProperty (s : Store) (className name : String) (type : PropertyType) : Store :=
  { s with
    catalog := { s.catalog with
      classes := addProperty className (.plain name type s.nextPropertyId) s.catalog.classes }
    nextPropertyId := s.nextPropertyId + 1 }

/-- The store with one more index. -/
def withIndex (s : Store) (i : Index) : Store :=
  { s with catalog := { s.catalog with indexes := s.catalog.indexes ++ [i] } }

/-- The store with one more record, under the next identity of a class. -/
def withRecord (s : Store) (className : String) (r : Record) : Store :=
  { s with
    records := s.records ++
      [r.withRid ⟨s.clusterOf className, Int64.ofNat (s.nextPosition className)⟩]
    nextPositions := setPosition className (s.nextPosition className + 1) s.nextPositions }

/-- `ReadsUpdate s statement className assignments condition` says that the statement is an update
of the class with this exact name, and what its two clauses hold. -/
inductive ReadsUpdate (s : Store) :
    Statement → String → List Assignment → Option Assignment → Prop where
  | intro {name className : String} {text : List Char} {conditionText : Option (List Char)}
      {assignments : List Assignment} {condition : Option Assignment}
      (hclass : s.className name = .ok className)
      (hassignments : readAssignments text = .ok assignments)
      (hcondition : readCondition? conditionText = .ok condition) :
      ReadsUpdate s (.update name text conditionText) className assignments condition

/-- `Transition s statement answer after` says that the statement gives the answer and leaves the
store `after`. -/
inductive Transition (s : Store) : Statement → Except EngineError Outcome → Store → Prop where
  | refuse (statement : Statement) (error : EngineError) :
      Transition s statement (.error error) s
  | createClass (name : String) (parent superClass : Option String)
      (hparent : parent.mapM s.className = .ok superClass)
      (hnew : s.catalog.find? name = none) :
      Transition s (.createClass name parent) (.ok (.written 0)) (s.withClass name superClass)
  | createProperty (name className property typeName : String) (type : PropertyType)
      (htype : PropertyType.read? typeName = some type)
      (hclass : s.className name = .ok className) :
      Transition s (.createProperty name property typeName) (.ok (.written 0))
        (s.withProperty name property type)
  | createIndex (index name className : String) (fields : List String) (unique : Bool)
      (hclass : s.className name = .ok className) :
      Transition s (.createIndex index name fields unique) (.ok (.written 0))
        (s.withIndex ⟨index, className, if unique then .unique else .notUnique, fields⟩)
  | insert (name className : String) (text : List Char) (assignments : List Assignment)
      (hclass : s.className name = .ok className)
      (hassignments : readAssignments text = .ok assignments)
      (hunique : s.checkUnique ((RecordOf.ofClass className).setAll assignments) none = .ok ()) :
      Transition s (.insert name text) (.ok (.written 1))
        (s.withRecord className ((RecordOf.ofClass className).setAll assignments))
  | update (statement : Statement) (className : String) (assignments : List Assignment)
      (condition : Option Assignment)
      (hread : s.ReadsUpdate statement className assignments condition)
      (hpassed : updateEach assignments (s.targetPlaces className condition) s =
        (.ok (), s.assignAt assignments (s.targetPlaces className condition))) :
      Transition s statement (.ok (.written (s.targetPlaces className condition).length))
        (s.assignAt assignments (s.targetPlaces className condition))
  | stop (statement : Statement) (className : String) (assignments : List Assignment)
      (condition : Option Assignment) (done : List Nat) (place : Nat) (error : EngineError)
      (hread : s.ReadsUpdate statement className assignments condition)
      (hstop : s.Stop assignments (s.targetPlaces className condition) done place error) :
      Transition s statement (.error error) (s.assignAt assignments done)
  | delete (name className : String) (conditionText : Option (List Char))
      (condition : Option Assignment) (hclass : s.className name = .ok className)
      (hcondition : readCondition? conditionText = .ok condition) :
      Transition s (.delete name conditionText)
        (.ok (.written (s.targetPlaces className condition).length))
        { s with records := s.records.filter fun r => !isTarget className condition r }
  | select (name className : String) (conditionText : Option (List Char))
      (condition : Option Assignment) (hclass : s.className name = .ok className)
      (hcondition : readCondition? conditionText = .ok condition) :
      Transition s (.select name conditionText)
        (.ok (.rows (s.targets className condition))) s

/-- A run that creates a class is a transition. -/
theorem transition_createClass (s : Store) (name : String) (parent : Option String) :
    s.Transition (.createClass name parent) (s.run (.createClass name parent)).1
      (s.run (.createClass name parent)).2 := by
  have hcreate : s.createClass name parent =
      match parent.mapM s.className with
      | .ok superClass =>
        if (s.catalog.find? name).isSome then
          .error (.execution ("Class '" ++ name ++ "' already exists"))
        else .ok (s.withClass name superClass)
      | .error error => .error error := by
    cases parent with
    | none => rfl
    | some parent =>
        have hmap : (some parent).mapM s.className = (s.className parent).map some := rfl
        rw [hmap]
        cases hparent : s.className parent <;>
          simp [createClass, hparent, withClass, bind, Except.bind, pure, Except.pure,
            Functor.map, Except.map]
  rw [run, hcreate]
  cases hparent : parent.mapM s.className with
  | error error => exact .refuse _ error
  | ok superClass =>
      cases hname : s.catalog.find? name with
      | some c => exact .refuse _ _
      | none => exact .createClass name parent superClass hparent hname

/-- A run that creates a property is a transition. -/
theorem transition_createProperty (s : Store) (name property typeName : String) :
    s.Transition (.createProperty name property typeName)
      (s.run (.createProperty name property typeName)).1
      (s.run (.createProperty name property typeName)).2 := by
  rw [run, createProperty]
  cases htype : PropertyType.read? typeName with
  | none => exact .refuse _ _
  | some type =>
      cases hclass : s.className name with
      | error error => exact .refuse _ error
      | ok className => exact .createProperty name className property typeName type htype hclass

/-- A run that creates an index is a transition. -/
theorem transition_createIndex (s : Store) (index name : String) (fields : List String)
    (unique : Bool) :
    s.Transition (.createIndex index name fields unique)
      (s.run (.createIndex index name fields unique)).1
      (s.run (.createIndex index name fields unique)).2 := by
  rw [run, createIndex]
  cases hclass : s.className name with
  | error error => exact .refuse _ error
  | ok className => exact .createIndex index name className fields unique hclass

/-- A run that inserts a record is a transition. -/
theorem transition_insert (s : Store) (name : String) (text : List Char) :
    s.Transition (.insert name text) (s.run (.insert name text)).1
      (s.run (.insert name text)).2 := by
  rw [run]
  cases hclass : s.className name with
  | error error => exact .refuse _ error
  | ok className =>
      cases hassignments : readAssignments text with
      | error error => exact .refuse _ error
      | ok assignments =>
          cases hunique : s.checkUnique ((RecordOf.ofClass className).setAll assignments) none with
          | error error =>
              have hinsert : s.insert className assignments = .error error := by
                rw [insert, hunique]
                rfl
              simp only [bind, Except.bind, hinsert]
              exact .refuse _ error
          | ok =>
              have hinsert : s.insert className assignments = .ok (s.withRecord className
                  ((RecordOf.ofClass className).setAll assignments)) := by
                rw [insert, hunique]
                rfl
              simp only [bind, Except.bind, hinsert]
              exact .insert name className text assignments hclass hassignments hunique

/-- An update whose texts are read updates the class it names. -/
theorem run_update {s : Store} {statement : Statement} {className : String}
    {assignments : List Assignment} {condition : Option Assignment}
    (h : s.ReadsUpdate statement className assignments condition) :
    s.run statement = s.update className assignments condition := by
  cases h with
  | intro hclass hassignments hcondition =>
      simp [run, hclass, hassignments, hcondition, bind, Except.bind, pure, Except.pure]

/-- An update that stops keeps what it assigned before, and fails with the error it stopped at. -/
theorem run_update_stopped {s : Store} {statement : Statement} {className : String}
    {assignments : List Assignment} {condition : Option Assignment} {done : List Nat}
    {place : Nat} {error : EngineError}
    (h : s.ReadsUpdate statement className assignments condition)
    (hstop : s.Stop assignments (s.targetPlaces className condition) done place error) :
    s.run statement = (.error error, s.assignAt assignments done) := by
  rw [run_update h, update, hstop.updateEach_eq]
  rfl

/-- Updating is a transition: it never starts, runs to the end or stops at a place. -/
theorem transition_update (s : Store) (name : String) (text : List Char)
    (conditionText : Option (List Char)) :
    s.Transition (.update name text conditionText)
      (s.run (.update name text conditionText)).1
      (s.run (.update name text conditionText)).2 := by
  cases hclass : s.className name with
  | error error =>
      simp only [run, hclass, bind, Except.bind]
      exact .refuse _ error
  | ok className =>
      cases hassignments : readAssignments text with
      | error error =>
          simp only [run, hclass, hassignments, bind, Except.bind]
          exact .refuse _ error
      | ok assignments =>
          cases hcondition : readCondition? conditionText with
          | error error =>
              simp only [run, hclass, hassignments, hcondition, bind, Except.bind]
              exact .refuse _ error
          | ok condition =>
              have hread : s.ReadsUpdate (.update name text conditionText) className assignments
                condition := .intro hclass hassignments hcondition
              rcases updateEach_cases s assignments (s.nodup_targetPlaces className condition)
                with hpassed | ⟨done, place, error, hstop⟩
              · rw [run_update hread, update, hpassed]
                exact .update _ className assignments condition hread hpassed
              · rw [run_update_stopped hread hstop]
                exact .stop _ className assignments condition done place error hread hstop

/-- A run that deletes records is a transition. -/
theorem transition_delete (s : Store) (name : String) (conditionText : Option (List Char)) :
    s.Transition (.delete name conditionText) (s.run (.delete name conditionText)).1
      (s.run (.delete name conditionText)).2 := by
  rw [run]
  cases hclass : s.className name with
  | error error => exact .refuse _ error
  | ok className =>
      cases hcondition : readCondition? conditionText with
      | error error => exact .refuse _ error
      | ok condition =>
          have hdelete := delete_eq s className condition
          simp only [bind, Except.bind, pure, Except.pure, hdelete]
          exact .delete name className conditionText condition hclass hcondition

/-- A run that selects records is a transition, which keeps the store. -/
theorem transition_select (s : Store) (name : String) (conditionText : Option (List Char)) :
    s.Transition (.select name conditionText) (s.run (.select name conditionText)).1
      (s.run (.select name conditionText)).2 := by
  rw [run]
  cases hclass : s.className name with
  | error error => exact .refuse _ error
  | ok className =>
      cases hcondition : readCondition? conditionText with
      | error error => exact .refuse _ error
      | ok condition => exact .select name className conditionText condition hclass hcondition

/-- Every statement does one of the transitions. -/
theorem transition_run (s : Store) (statement : Statement) :
    s.Transition statement (s.run statement).1 (s.run statement).2 := by
  cases statement with
  | createClass name parent => exact transition_createClass s name parent
  | createProperty name property typeName =>
      exact transition_createProperty s name property typeName
  | createIndex index name fields unique =>
      exact transition_createIndex s index name fields unique
  | insert name text => exact transition_insert s name text
  | update name text conditionText => exact transition_update s name text conditionText
  | delete name conditionText => exact transition_delete s name conditionText
  | select name conditionText => exact transition_select s name conditionText

/-! ## Commands -/

/-- A text is applied as the statement it reads as. -/
theorem apply_of_read {s : Store} {command : List Char} {statement : Statement}
    (h : Statement.read? (statementText command) = some statement) :
    s.apply command = s.run statement := by
  simp only [apply, h]

/-- A command that holds no statement leaves the store as it was. -/
theorem apply_of_unread {s : Store} {command : List Char}
    (h : Statement.read? (statementText command) = none) : (s.apply command).2 = s := by
  simp only [apply, h]

/-- What a store has, it has after a command if the statement in the command keeps it. -/
theorem apply_kept {P : Store → Prop} {s : Store} {command : List Char} (hs : P s)
    (hstatement : ∀ statement, Statement.read? (statementText command) = some statement →
      P (s.run statement).2) : P (s.apply command).2 := by
  cases hread : Statement.read? (statementText command) with
  | none =>
      rw [apply_of_unread hread]
      exact hs
  | some statement =>
      rw [apply_of_read hread]
      exact hstatement statement hread

end DocumentClient.Memory.Store
