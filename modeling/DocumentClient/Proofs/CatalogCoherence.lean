import DocumentClient.Proofs.DatabaseRuns
import DocumentClient.Proofs.StoreSteps
import Mathlib.Algebra.Group.Nat.Defs
import Mathlib.Data.List.Nodup
import Mathlib.Data.List.Pairwise
import Mathlib.Logic.Relation

/-!
# The names and numbers of a catalog

Statements name classes without regard to ASCII case, while a superclass, an index and a record
know their class by its exact name. `Coherent` says that these exact names are names of classes,
that classes can be told apart by them, and that a superclass stands before its subclasses, so
that inheritance has no cycle (`Coherent.not_extends_self`). Properties are numbered in the order
in which they are made. Every statement keeps this, whether it succeeds or fails
(`Transition.coherent`), and so it holds of all stores of every run.

The numbers have 32 bits. They are below the next one exactly as long as there are fewer than
`2 ^ 31` properties (`Coherent.propertyIds_lt_iff`), and `numbers_wrap` is a run after which they
are not.
-/

namespace DocumentClient.Memory

namespace Store

variable {s : Store}

/-- The names of the classes, in order. -/
def classNames (s : Store) : List String :=
  s.catalog.classes.map (·.name)

/-- The numbers of all properties, class by class. -/
def propertyIds (s : Store) : List Int32 :=
  s.catalog.classes.flatMap fun c => c.properties.map (·.id)

/-- What holds of the names and numbers in a store, whatever was done with it. -/
structure Coherent (s : Store) : Prop where
  /-- No two classes have the same name, ignoring ASCII case. -/
  classNames : s.classNames.Pairwise fun a b => Text.eqIgnoringAsciiCase a b = false
  /-- A superclass stands before the class. -/
  superClasses : ∀ place c, s.catalog.classes[place]? = some c → ∀ parent,
    c.superClass = some parent → parent ∈ s.classNames.take place
  indexClasses : ∀ i ∈ s.catalog.indexes, i.className ∈ s.classNames
  recordClasses : ∀ r ∈ s.records, ∃ name ∈ s.classNames, r.className = some name
  /-- The properties are numbered from zero on, in 32 bits. -/
  propertyIds : s.propertyIds.Perm ((List.range s.propertyIds.length).map Int32.ofNat)
  /-- The next number is that of one more property. -/
  nextPropertyId : s.nextPropertyId = Int32.ofNat s.propertyIds.length

/-! ## Names -/

/-- The exact name of a class is the name of the class that was looked up. -/
theorem className_ok {name className : String} (h : s.className name = .ok className) :
    ∃ c, s.catalog.find? name = some c ∧ c.name = className := by
  unfold Store.className at h
  split at h
  · next c hfind => exact ⟨c, hfind, Except.ok.inj h⟩
  · exact nomatch h

/-- The exact name that was found for a class is a name of a class. -/
theorem mem_classNames_of_className {name className : String}
    (h : s.className name = .ok className) : className ∈ s.classNames := by
  obtain ⟨c, hfind, rfl⟩ := className_ok h
  exact List.mem_map_of_mem (List.mem_of_find?_eq_some hfind)

/-- A name that finds no class differs from the names of all classes. -/
theorem ne_of_find?_eq_none {name other : String} (h : s.catalog.find? name = none)
    (hother : other ∈ s.classNames) : Text.eqIgnoringAsciiCase other name = false := by
  obtain ⟨c, hc, rfl⟩ := List.mem_map.mp hother
  exact Bool.eq_false_iff.mpr (List.find?_eq_none.mp h c hc)

/-- No two classes have the same name. -/
theorem Coherent.nodup_classNames (hs : s.Coherent) : s.classNames.Nodup := by
  refine hs.classNames.imp fun hdiffer hsame => ?_
  rw [hsame, Text.eqIgnoringAsciiCase_self] at hdiffer
  exact nomatch hdiffer

/-- Names of classes that agree but for ASCII case are the same. -/
theorem Coherent.eq_of_eqIgnoringAsciiCase (hs : s.Coherent) {a b : String}
    (ha : a ∈ s.classNames) (hb : b ∈ s.classNames) (h : Text.eqIgnoringAsciiCase a b = true) :
    a = b := by
  by_contra hne
  have hsymm : Std.Symm fun a b => Text.eqIgnoringAsciiCase a b = false :=
    ⟨fun x y hxy => (Text.eqIgnoringAsciiCase_comm y x).trans hxy⟩
  have hdiffer := hs.classNames.forall ha hb hne
  rw [h] at hdiffer
  exact nomatch hdiffer

/-! ## Inheritance -/

/-- A class of the first name is declared as a subclass of the second. -/
def Extends (s : Store) (child parent : String) : Prop :=
  ∃ c ∈ s.catalog.classes, c.name = child ∧ c.superClass = some parent

/-- A parent stands before its child. -/
theorem Coherent.idxOf_lt (hs : s.Coherent) {child parent : String}
    (h : s.Extends child parent) : s.classNames.idxOf parent < s.classNames.idxOf child := by
  obtain ⟨c, hc, rfl, hparent⟩ := h
  obtain ⟨place, hplace, hget⟩ := List.mem_iff_getElem.mp hc
  have hlt : place < s.classNames.length := by simpa [Store.classNames] using hplace
  have hchild : s.classNames.idxOf c.name = place := by
    have hname : s.classNames[place] = c.name := by simp [Store.classNames, hget]
    rw [← hname]
    exact hs.nodup_classNames.idxOf_getElem place hlt
  have hbefore := hs.superClasses place c
    (by rw [List.getElem?_eq_getElem hplace, hget]) parent hparent
  rw [hchild]
  obtain ⟨earlier, hearlier, hname⟩ := List.mem_take_iff_getElem.mp hbefore
  have hfirst : s.classNames.idxOf parent = earlier := by
    rw [← hname]
    exact hs.nodup_classNames.idxOf_getElem earlier _
  omega

/-- Inheritance has no cycle. -/
theorem Coherent.not_extends_self (hs : s.Coherent) (name : String) :
    ¬ Relation.TransGen s.Extends name name := by
  intro hcycle
  have hdescend : ∀ ancestor, Relation.TransGen s.Extends name ancestor →
      s.classNames.idxOf ancestor < s.classNames.idxOf name := by
    intro ancestor h
    induction h with
    | single hstep => exact hs.idxOf_lt hstep
    | tail _ hstep ih => exact Nat.lt_trans (hs.idxOf_lt hstep) ih
  exact Nat.lt_irrefl _ (hdescend name hcycle)

/-! ## Numbers -/

/-- Two numbers are the same word of 32 bits if they differ by a multiple of 2^32. -/
theorem int32_ofNat_inj_iff {a b : Nat} :
    Int32.ofNat a = Int32.ofNat b ↔ a % 2 ^ 32 = b % 2 ^ 32 := by
  rw [← Int32.toBitVec_inj]
  simp [← BitVec.toNat_inj]

/-- The numbers of properties are distinct as long as 32 bits are enough for them. -/
theorem Coherent.nodup_propertyIds_iff (hs : s.Coherent) :
    s.propertyIds.Nodup ↔ s.propertyIds.length ≤ 2 ^ 32 := by
  rw [hs.propertyIds.nodup_iff, List.nodup_map_iff_inj_on List.nodup_range]
  constructor
  · intro hinj
    by_contra hmany
    -- The first number comes back.
    have hback := hinj 0 (List.mem_range.mpr (by omega)) (2 ^ 32) (List.mem_range.mpr (by omega))
      (int32_ofNat_inj_iff.mpr (by decide))
    omega
  · intro hfew a ha b hb hab
    have hmod := int32_ofNat_inj_iff.mp hab
    rw [List.mem_range] at ha hb
    omega

/-- The numbers of properties are below the next one as long as that one is not negative. -/
theorem Coherent.propertyIds_lt_iff (hs : s.Coherent) :
    (∀ id ∈ s.propertyIds, id < s.nextPropertyId) ↔ s.propertyIds.length < 2 ^ 31 := by
  rw [hs.nextPropertyId]
  constructor
  · intro hbelow
    by_contra hmany
    -- The greatest number of all is in use.
    have hmem : Int32.ofNat (2 ^ 31 - 1) ∈ s.propertyIds :=
      hs.propertyIds.mem_iff.mpr (List.mem_map_of_mem (List.mem_range.mpr (by omega)))
    exact absurd (Int32.le_maxValue _) (Int32.not_le.mpr (hbelow _ hmem))
  · intro hfew id hid
    obtain ⟨place, hplace, rfl⟩ := List.mem_map.mp (hs.propertyIds.mem_iff.mp hid)
    rw [List.mem_range] at hplace
    rw [Int32.lt_iff_toInt_lt, Int32.toInt_ofNat_of_lt (by omega), Int32.toInt_ofNat_of_lt hfew]
    omega

/-! ## Statements that change the schema -/

/-- An empty store is coherent. -/
theorem coherent_empty : Store.empty.Coherent := by
  constructor <;> simp [Store.empty, Catalog.empty, Store.classNames, Store.propertyIds]

/-- A new class comes last. -/
theorem classNames_withClass (s : Store) (name : String) (superClass : Option String) :
    (s.withClass name superClass).classNames = s.classNames ++ [name] := by
  simp [withClass, Store.classNames]

/-- A class under a new name, and under a parent that exists, keeps the store coherent. -/
theorem Coherent.withClass (hs : s.Coherent) {name : String} {superClass : Option String}
    (hnew : s.catalog.find? name = none)
    (hparent : ∀ parent, superClass = some parent → parent ∈ s.classNames) :
    (s.withClass name superClass).Coherent := by
  have hold : ∀ other ∈ s.classNames, other ∈ (s.withClass name superClass).classNames := by
    intro other hother
    rw [classNames_withClass]
    exact List.mem_append_left _ hother
  have hids : (s.withClass name superClass).propertyIds = s.propertyIds := by
    simp [Store.withClass, Store.propertyIds]
  constructor
  case classNames =>
    rw [classNames_withClass]
    refine List.pairwise_append.mpr ⟨hs.classNames, List.pairwise_singleton _ _, ?_⟩
    intro other hother new hmem
    rw [List.mem_singleton.mp hmem]
    exact ne_of_find?_eq_none hnew hother
  case superClasses =>
    intro place c hc parent hsuper
    rw [classNames_withClass]
    rcases Nat.lt_or_ge place s.catalog.classes.length with hlt | hge
    · have hkept : s.catalog.classes[place]? = some c := by
        rw [← hc]
        exact (List.getElem?_append_left hlt).symm
      rw [List.take_append_of_le_length (by simpa [Store.classNames] using Nat.le_of_lt hlt)]
      exact hs.superClasses place c hkept parent hsuper
    · have hlast : [(⟨name, superClass, []⟩ : ClassDef)][place - s.catalog.classes.length]? =
          some c := by
        rw [← hc]
        exact (List.getElem?_append_right hge).symm
      obtain rfl : c = ⟨name, superClass, []⟩ :=
        List.mem_singleton.mp (List.mem_of_getElem? hlast)
      have hmem := hparent parent hsuper
      have htake : s.classNames.take place = s.classNames :=
        List.take_of_length_le (by simpa [Store.classNames] using hge)
      rw [List.take_append, htake]
      exact List.mem_append_left _ hmem
  case indexClasses => exact fun i hi => hold _ (hs.indexClasses i hi)
  case recordClasses =>
    intro r hr
    obtain ⟨other, hother, hname⟩ := hs.recordClasses r hr
    exact ⟨other, hold other hother, hname⟩
  case propertyIds => rw [hids]; exact hs.propertyIds
  case nextPropertyId => rw [hids]; exact hs.nextPropertyId

/-- A new property changes neither names nor superclasses. -/
theorem addProperty_heads (className : String) (p : Property) (classes : List ClassDef) :
    (addProperty className p classes).map (fun c => (c.name, c.superClass)) =
      classes.map fun c => (c.name, c.superClass) := by
  induction classes with
  | nil => rfl
  | cons c classes ih =>
      rw [addProperty]
      split
      · rfl
      · rw [List.map_cons, List.map_cons, ih]

/-- A property changes no name of a class. -/
theorem classNames_withProperty (s : Store) (className name : String) (type : PropertyType) :
    (s.withProperty className name type).classNames = s.classNames := by
  have hmap := congrArg (List.map Prod.fst)
    (addProperty_heads className (.plain name type s.nextPropertyId) s.catalog.classes)
  rw [List.map_map, List.map_map] at hmap
  exact hmap

/-- It adds its number, since there is a class to add it to. -/
theorem addProperty_ids {className : String} (p : Property) {classes : List ClassDef}
    (hclass : ∃ c ∈ classes, Text.eqIgnoringAsciiCase c.name className = true) :
    ((addProperty className p classes).flatMap fun c => c.properties.map (·.id)).Perm
      (p.id :: classes.flatMap fun c => c.properties.map (·.id)) := by
  induction classes with
  | nil => simp at hclass
  | cons c classes ih =>
      rw [addProperty]
      split
      · simp only [List.flatMap_cons, List.map_append, List.map_cons, List.map_nil,
          List.append_assoc]
        exact List.perm_middle
      · next hother =>
          obtain ⟨found, hmem, hname⟩ := hclass
          have hrest : found ∈ classes := by
            rcases List.mem_cons.mp hmem with rfl | hrest
            · exact absurd hname hother
            · exact hrest
          rw [List.flatMap_cons, List.flatMap_cons]
          exact ((ih ⟨found, hrest, hname⟩).append_left _).trans List.perm_middle

/-- A property that is added to a class gets the next number. -/
theorem propertyIds_withProperty {className exactName : String}
    (hclass : s.className className = .ok exactName) (name : String) (type : PropertyType) :
    (s.withProperty className name type).propertyIds.Perm (s.nextPropertyId :: s.propertyIds) := by
  obtain ⟨c, hfind, -⟩ := className_ok hclass
  rw [Catalog.find?] at hfind
  have hname := List.find?_some hfind
  exact addProperty_ids (.plain name type s.nextPropertyId)
    ⟨c, List.mem_of_find?_eq_some hfind, hname⟩

/-- A new property has the next number, and the one after that becomes the next. -/
theorem Coherent.withProperty (hs : s.Coherent) {className exactName : String}
    (hclass : s.className className = .ok exactName) (name : String) (type : PropertyType) :
    (s.withProperty className name type).Coherent := by
  have hheads := addProperty_heads className (.plain name type s.nextPropertyId)
    s.catalog.classes
  have hids := propertyIds_withProperty hclass name type
  have hlength : (s.withProperty className name type).propertyIds.length =
      s.propertyIds.length + 1 := hids.length_eq
  have hnames := classNames_withProperty s className name type
  constructor
  case classNames => rw [hnames]; exact hs.classNames
  case superClasses =>
    intro place c hc parent hsuper
    have hget : (s.catalog.classes.map fun c => (c.name, c.superClass))[place]? =
        some (c.name, c.superClass) := by
      rw [← hheads, List.getElem?_map]
      exact congrArg (Option.map _) hc
    rw [List.getElem?_map] at hget
    obtain ⟨old, hold, hhead⟩ := Option.map_eq_some_iff.mp hget
    rw [hnames]
    exact hs.superClasses place old hold parent ((congrArg Prod.snd hhead).trans hsuper)
  case indexClasses => rw [hnames]; exact hs.indexClasses
  case recordClasses => rw [hnames]; exact hs.recordClasses
  case propertyIds =>
    rw [hlength, List.range_succ, List.map_append, List.map_singleton]
    refine hids.trans ?_
    rw [hs.nextPropertyId]
    exact (hs.propertyIds.cons _).trans (List.perm_append_singleton _ _).symm
  case nextPropertyId =>
    rw [hlength, Int32.ofNat_add, ← hs.nextPropertyId]
    rfl

/-- An index on a class that exists keeps the store coherent. -/
theorem Coherent.withIndex (hs : s.Coherent) {i : Index} (h : i.className ∈ s.classNames) :
    (s.withIndex i).Coherent where
  classNames := hs.classNames
  superClasses := hs.superClasses
  indexClasses other hother := by
    rcases List.mem_append.mp hother with hold | hnew
    · exact hs.indexClasses other hold
    · rw [List.mem_singleton.mp hnew]
      exact h
  recordClasses := hs.recordClasses
  propertyIds := hs.propertyIds
  nextPropertyId := hs.nextPropertyId

/-! ## Statements that change records -/

/-- Other records make no difference as long as they know their class. -/
theorem Coherent.withRecords (hs : s.Coherent) {records : List Record}
    (h : ∀ r ∈ records, ∃ name ∈ s.classNames, r.className = some name)
    (nextPositions : List (String × Nat)) :
    Coherent { s with records, nextPositions } where
  classNames := hs.classNames
  superClasses := hs.superClasses
  indexClasses := hs.indexClasses
  recordClasses := h
  propertyIds := hs.propertyIds
  nextPropertyId := hs.nextPropertyId

/-- Setting fields changes neither the identity nor the class of a record. -/
theorem assignAt_heads (s : Store) (assignments : List Assignment) (places : List Nat) :
    (s.assignAt assignments places).records.map (fun r => (r.rid, r.className)) =
      s.records.map fun r => (r.rid, r.className) := by
  refine List.ext_getElem? fun place => ?_
  rw [List.getElem?_map, List.getElem?_map, getElem?_assignAt, Option.map_map]
  congr 1
  funext r
  by_cases hplace : place ∈ places <;> simp [hplace]

/-- Assigning fields keeps the identities and the classes of all records. -/
theorem exists_of_mem_assignAt {assignments : List Assignment} {places : List Nat} {r : Record}
    (h : r ∈ (s.assignAt assignments places).records) :
    ∃ old ∈ s.records, old.rid = r.rid ∧ old.className = r.className := by
  have hmem := List.mem_map_of_mem (f := fun r : Record => (r.rid, r.className)) h
  rw [assignAt_heads] at hmem
  obtain ⟨old, hold, hhead⟩ := List.mem_map.mp hmem
  exact ⟨old, hold, congrArg Prod.fst hhead, congrArg Prod.snd hhead⟩

/-- So it keeps the store coherent. -/
theorem Coherent.assignAt (hs : s.Coherent) (assignments : List Assignment)
    (places : List Nat) : (s.assignAt assignments places).Coherent := by
  refine hs.withRecords (fun r hr => ?_) s.nextPositions
  obtain ⟨old, hold, -, hclass⟩ := exists_of_mem_assignAt hr
  rw [← hclass]
  exact hs.recordClasses old hold

/-- Every statement keeps the names and numbers of a store coherent. -/
theorem Transition.coherent {after : Store} {statement : Statement}
    {answer : Except EngineError Outcome} (h : s.Transition statement answer after)
    (hs : s.Coherent) : after.Coherent := by
  cases h with
  | refuse | select => exact hs
  | createClass name parent superClass hparent hnew =>
      refine hs.withClass hnew fun exact hsuper => ?_
      cases parent with
      | none =>
          obtain rfl := Except.ok.inj hparent
          exact nomatch hsuper
      | some parent =>
          have hmap : (s.className parent).map some = .ok superClass := hparent
          cases hclass : s.className parent with
          | error error =>
              rw [hclass] at hmap
              exact nomatch hmap
          | ok className =>
              rw [hclass, hsuper] at hmap
              obtain rfl := Option.some.inj (Except.ok.inj hmap)
              exact mem_classNames_of_className hclass
  | createProperty name className property typeName type htype hclass =>
      exact hs.withProperty hclass property type
  | createIndex index name className fields unique hclass =>
      exact hs.withIndex (mem_classNames_of_className hclass)
  | insert name className text assignments hclass hassignments hunique =>
      refine hs.withRecords (fun r hr => ?_) _
      rcases List.mem_append.mp hr with hold | hnew
      · exact hs.recordClasses r hold
      · rw [List.mem_singleton.mp hnew]
        exact ⟨className, mem_classNames_of_className hclass, RecordOf.setAll_className _ _⟩
  | update statement className assignments condition => exact hs.assignAt assignments _
  | stop statement className assignments condition done => exact hs.assignAt assignments done
  | delete name className conditionText condition hclass hcondition =>
      exact hs.withRecords (fun r hr => hs.recordClasses r (List.mem_of_mem_filter hr))
        s.nextPositions

/-- A statement keeps the store coherent, whether it succeeds or fails. -/
theorem Coherent.apply (hs : s.Coherent) (command : List Char) : (s.apply command).2.Coherent :=
  apply_kept hs fun statement _ => (s.transition_run statement).coherent hs

end Store

namespace Database

/-- All stores of all runs are coherent. -/
theorem coherent_of_run (requests : List Request) : empty.Always Store.Coherent requests :=
  always_of_kept Store.coherent_empty fun _ _ statement _ hs => hs.apply statement

/-- All stores of all runs are coherent, inheritance has no cycle in them, and the numbers of
properties are distinct and below the next one for as long as 32 bits allow it. -/
theorem always_coherent (requests : List Request) :
    empty.Always
      (fun s => s.Coherent ∧ (∀ name, ¬ Relation.TransGen s.Extends name name) ∧
        (s.propertyIds.Nodup ↔ s.propertyIds.length ≤ 2 ^ 32) ∧
        ((∀ id ∈ s.propertyIds, id < s.nextPropertyId) ↔ s.propertyIds.length < 2 ^ 31))
      requests :=
  (coherent_of_run requests).mono fun _ hs =>
    ⟨hs, hs.not_extends_self, hs.nodup_propertyIds_iff, hs.propertyIds_lt_iff⟩

/-! ## More properties than there are numbers -/

/-- Makes a class with this many properties. -/
def numbering (count : Nat) : List Request :=
  .command "CREATE CLASS T" :: List.replicate count (.command "CREATE PROPERTY T.a STRING")

/-- The last of some commands is applied to the store that the others left. -/
theorem serveAll_command (d : Database) (requests : List Request) (text : String) :
    (d.serveAll (requests ++ [.command text])).store =
      ((d.serveAll requests).store.apply text.toList).2 := by
  rw [serveAll, List.foldl_append, List.foldl_cons, List.foldl_nil, serve, runCommand_store,
    serveAll]

/-- One more property is created last. -/
theorem numbering_succ (count : Nat) :
    numbering (count + 1) = numbering count ++ [.command "CREATE PROPERTY T.a STRING"] := by
  rw [numbering, List.replicate_succ', numbering, List.cons_append]

/-- The command adds its property to the only class. -/
theorem classes_apply_createProperty {s : Store} {properties : List Property}
    (hclasses : s.catalog.classes = [⟨"T", none, properties⟩]) :
    (s.apply "CREATE PROPERTY T.a STRING".toList).2.catalog.classes =
      [⟨"T", none, properties ++ [.plain "a" .string s.nextPropertyId]⟩] := by
  have hread : Statement.read? (Store.statementText "CREATE PROPERTY T.a STRING".toList) =
      some (.createProperty "T" "a" "STRING") := by decide +kernel
  have htype : PropertyType.read? "STRING" = some .string := by decide +kernel
  have hclass : s.className "T" = .ok "T" := by
    simp [Store.className, Catalog.find?, hclasses, Text.eqIgnoringAsciiCase_self]
  have hrun : (s.run (.createProperty "T" "a" "STRING")).2 = s.withProperty "T" "a" .string := by
    simp [Store.run, Store.createProperty, htype, hclass, Store.written, Store.withProperty, bind,
      Except.bind, pure, Except.pure]
  rw [Store.apply_of_read hread, hrun]
  simp [Store.withProperty, hclasses, Store.addProperty, Text.eqIgnoringAsciiCase_self]

/-- After these requests there is one class, with as many properties as were made. -/
theorem classes_numbering (count : Nat) : ∃ properties,
    (empty.serveAll (numbering count)).store.catalog.classes = [⟨"T", none, properties⟩] ∧
      properties.length = count := by
  induction count with
  | zero => exact ⟨[], by decide +kernel, rfl⟩
  | succ count ih =>
      obtain ⟨properties, hclasses, hlength⟩ := ih
      refine ⟨properties ++
        [.plain "a" .string (empty.serveAll (numbering count)).store.nextPropertyId], ?_, ?_⟩
      · rw [numbering_succ, serveAll_command, classes_apply_createProperty hclasses]
      · rw [List.length_append, hlength, List.length_singleton]

/-- Each of these commands creates a property. -/
theorem propertyIds_numbering (count : Nat) :
    (empty.serveAll (numbering count)).store.propertyIds.length = count := by
  obtain ⟨properties, hclasses, hlength⟩ := classes_numbering count
  simp [Store.propertyIds, hclasses, hlength]

/-- From the property with number 2147483647 on, the next number is negative. -/
theorem not_below_numbering {count : Nat} (hmany : 2 ^ 31 ≤ count) :
    ¬ ∀ id ∈ (empty.serveAll (numbering count)).store.propertyIds,
      id < (empty.serveAll (numbering count)).store.nextPropertyId := by
  rw [(coherent_of_run (numbering count)).final.propertyIds_lt_iff, propertyIds_numbering]
  exact Nat.not_lt.mpr hmany

/-- With `2 ^ 31` properties the next number is negative, so that the others are not below it. -/
theorem numbers_wrap :
    ¬ ∀ id ∈ (empty.serveAll (numbering (2 ^ 31))).store.propertyIds,
      id < (empty.serveAll (numbering (2 ^ 31))).store.nextPropertyId :=
  not_below_numbering (Nat.le_refl _)

end Database

end DocumentClient.Memory
