import DocumentClient.Proofs.CatalogCoherence
import DocumentClient.Proofs.ValueEquality

/-!
# Unique indexes stay unique

A unique index tells the records of its class apart by their keys. Insertions and updates look
for the key of one record among the others, and an update does so for one record after another,
after it has changed the earlier ones. `UniqueIndexes` is kept all the same, also by an update
that is stopped (`Transition.indexed`), provided that each unique index is created while it tells
the records apart (`always_uniqueIndexes`).

A check compares keys in one direction only. The other follows because all fields hold
literals, on which equality is symmetric.
-/

namespace DocumentClient

/-! ## Literals -/

/-- Whether a value is one that a literal can stand for. -/
def Value.isLiteral : Value → Bool
  | .null | .bool _ | .int64 _ | .double _ | .string _ => true
  | _ => false

/-- A literal is compared alike from both sides, also with a value that is none. -/
theorem Value.equals_comm_of_isLiteral {a : Value} (ha : a.isLiteral = true) (b : Value) :
    a.equals b = b.equals a := by
  cases a with
  | null => cases b <;> simp [equals]
  | bool a => cases b <;> simp [equals, BEq.comm]
  | int64 a => cases b <;> simp [equals, BEq.comm]
  | double a => cases b <;> simp [equals, Double.equals_comm]
  | string a => cases b <;> simp [equals, BEq.comm]
  | _ => exact absurd ha Bool.false_ne_true

namespace Memory

/-- A word stands for a literal. -/
theorem wordLiteral?_isLiteral {text : List Char} {value : Value}
    (h : wordLiteral? text = some value) : value.isLiteral = true := by
  simp only [wordLiteral?] at h
  split at h
  · obtain rfl := Option.some.inj h
    rfl
  · split at h
    · obtain rfl := Option.some.inj h
      rfl
    · split at h
      · obtain rfl := Option.some.inj h
        rfl
      · exact nomatch h

/-- What a text stands for is a literal. -/
theorem literal?_isLiteral {text : List Char} {value : Value} (h : literal? text = some value) :
    value.isLiteral = true := by
  unfold literal? at h
  split at h
  · obtain rfl := Option.some.inj h
    rfl
  · split at h
    · next word hword =>
        obtain rfl := Option.some.inj h
        exact wordLiteral?_isLiteral hword
    · split at h
      · obtain rfl := Option.some.inj h
        rfl
      · obtain ⟨x, -, rfl⟩ := Option.map_eq_some_iff.mp h
        rfl

/-- A value that is read is a literal. -/
theorem readLiteral_isLiteral {text : List Char} {value : Value}
    (h : readLiteral text = .ok value) : value.isLiteral = true := by
  simp only [readLiteral] at h
  split at h
  · next literal hliteral =>
      obtain rfl := Except.ok.inj h
      exact literal?_isLiteral hliteral
  · cases h

/-- The values of assignments that are read are literals. -/
theorem assignmentsFrom_isLiteral {text : List Char} {assignments : List Assignment}
    (h : assignmentsFrom text = .ok assignments) :
    ∀ assignment ∈ assignments, assignment.2.isLiteral = true := by
  fun_induction assignmentsFrom text generalizing assignments with
  | case1 =>
      obtain rfl := Except.ok.inj h
      exact fun _ hmem => nomatch hmem
  | case2 => exact nomatch h
  | case3 text hne name literal rest hcut ih =>
      cases hvalue : readLiteral literal with
      | error error =>
          rw [hvalue] at h
          exact nomatch h
      | ok value =>
          cases hothers : assignmentsFrom (Text.trimStart rest) with
          | error error =>
              rw [hvalue, hothers] at h
              exact nomatch h
          | ok others =>
              rw [hvalue, hothers] at h
              obtain rfl := Except.ok.inj h
              exact List.forall_mem_cons.mpr ⟨readLiteral_isLiteral hvalue, ih hothers⟩

/-- All values that a record has are literals. -/
def HasLiterals (r : Record) : Prop :=
  ∀ field ∈ r.fields, field.2.isLiteral = true

/-- Assigning a literal keeps a record to literals. -/
theorem HasLiterals.set {r : Record} (hr : HasLiterals r) (name : String) {value : Value}
    (hvalue : value.isLiteral = true) : HasLiterals (r.set name value) := by
  intro field hfield
  rcases RecordOf.mem_of_mem_setField hfield with rfl | hfield
  · exact hvalue
  · exact hr field hfield

/-- Assigning several literals keeps a record to literals. -/
theorem HasLiterals.setAll {r : Record} (hr : HasLiterals r) {assignments : List Assignment}
    (h : ∀ assignment ∈ assignments, assignment.2.isLiteral = true) :
    HasLiterals (r.setAll assignments) := by
  induction assignments generalizing r with
  | nil => exact hr
  | cons first assignments ih =>
      obtain ⟨hfirst, hrest⟩ := List.forall_mem_cons.mp h
      exact ih (hr.set first.1 hfirst) hrest

namespace Store

variable {s : Store}

/-! ## Keys -/

/-- The fields of a record with literals are compared alike from both sides. -/
theorem equalOptions_comm {r : Record} (hr : HasLiterals r) (field : String) (other : Record) :
    Value.equalOptions (r.get? field) (other.get? field) =
      Value.equalOptions (other.get? field) (r.get? field) := by
  cases hget : r.get? field with
  | none => cases other.get? field <;> rfl
  | some value =>
      have hliteral : value.isLiteral = true := hr (field, value) (RecordOf.mem_of_lookup hget)
      cases other.get? field with
      | none => rfl
      | some otherValue => exact Value.equals_comm_of_isLiteral hliteral otherValue

/-- Records of literals share a key alike from both sides. -/
theorem sameKey_comm {r : Record} (hr : HasLiterals r) {i : Index} {other : Record} :
    SameKey i r other ↔ SameKey i other r := by
  simp only [SameKey, equalOptions_comm hr]

/-- Whether a record is of the class of an index, ignoring ASCII case. -/
def isIndexed (i : Index) (r : Record) : Bool :=
  r.className.any fun className => Text.eqIgnoringAsciiCase className i.className

/-- If both records are of the class of an index, neither has the values of the other in all fields
of the index. -/
def Separates (i : Index) (a b : Record) : Prop :=
  isIndexed i a = true → isIndexed i b = true → ¬ SameKey i a b ∧ ¬ SameKey i b a

instance (i : Index) (a b : Record) : Decidable (Separates i a b) :=
  inferInstanceAs (Decidable (_ → _ → _ ∧ _))

/-- An index that tells two records apart does so from both sides. -/
theorem Separates.symm {i : Index} {a b : Record} (h : Separates i a b) : Separates i b a :=
  fun hb ha => (h ha hb).symm

/-- An index tells any two records of its class apart. -/
def Distinguishes (s : Store) (i : Index) : Prop :=
  s.records.Pairwise (Separates i)

instance (s : Store) (i : Index) : Decidable (s.Distinguishes i) :=
  inferInstanceAs (Decidable (List.Pairwise _ _))

/-- All unique indexes tell the records of their classes apart. -/
def UniqueIndexes (s : Store) : Prop :=
  ∀ i ∈ s.catalog.indexes, i.kind.isUnique = true → s.Distinguishes i

/-! ## The check of one record -/

/-- A record that passes the check takes no key of a unique index of its class. -/
theorem isTaken_of_checkUnique {r : Record} {skip : Option Nat} {i : Index} {className : String}
    (hcheck : s.checkUnique r skip = .ok ()) (hclass : r.className = some className)
    (hi : i ∈ s.catalog.indexesOf className) (hunique : i.kind.isUnique = true) :
    s.isTaken className i r skip = false := by
  have hnone : s.conflict? r skip = none := by
    unfold checkUnique at hcheck
    split at hcheck
    · assumption
    · exact nomatch hcheck
  simp only [conflict?, hclass, Option.map_eq_none_iff] at hnone
  have hpassed := List.find?_eq_none.mp hnone i hi
  rw [hunique, Bool.true_and] at hpassed
  exact Bool.eq_false_iff.mpr hpassed

/-- A record that passes the check has a key of its own in each unique index of its class. -/
theorem not_sameKey_of_checkUnique (hs : s.Coherent) {r other : Record} {skip : Option Nat}
    {i : Index} {className : String} {place : Nat} (hcheck : s.checkUnique r skip = .ok ())
    (hclass : r.className = some className) (hname : className ∈ s.classNames)
    (hi : i ∈ s.catalog.indexes) (hunique : i.kind.isUnique = true)
    (hr : isIndexed i r = true) (hother : s.records[place]? = some other)
    (hindexed : isIndexed i other = true) (hskip : some place ≠ skip) :
    ¬ SameKey i other r := by
  have hsame : Text.eqIgnoringAsciiCase className i.className = true := by
    rw [isIndexed, hclass, Option.any_some] at hr
    exact hr
  -- Indexes are found by the name of the class, records by its exact name: both are one class.
  obtain ⟨otherName, hotherName, hotherClass⟩ :=
    hs.recordClasses other (List.mem_of_getElem? hother)
  have hexact : otherName = className := by
    rw [isIndexed, hotherClass, Option.any_some] at hindexed
    refine hs.eq_of_eqIgnoringAsciiCase hotherName hname ?_
    rw [Text.eqIgnoringAsciiCase_iff] at hindexed hsame ⊢
    exact hindexed.trans hsame.symm
  have hindex : i ∈ s.catalog.indexesOf className := by
    refine List.mem_filter.mpr ⟨hi, ?_⟩
    rw [Text.eqIgnoringAsciiCase_comm]
    exact hsame
  have hfree := isTaken_of_checkUnique hcheck hclass hindex hunique
  have hplace := List.any_eq_false.mp hfree (other, place)
    (List.mem_zipIdx_iff_getElem?.mpr hother)
  have hexactClass : other.className = some className := hotherClass.trans (congrArg some hexact)
  rw [← equalKeys_indexKey_iff]
  simpa [hexactClass, hskip] using hplace

/-- Such a record is told apart from the others. -/
theorem separates_of_checkUnique (hs : s.Coherent) {r other : Record} {skip : Option Nat}
    {i : Index} {className : String} {place : Nat} (hliterals : HasLiterals r)
    (hcheck : s.checkUnique r skip = .ok ()) (hclass : r.className = some className)
    (hname : className ∈ s.classNames) (hi : i ∈ s.catalog.indexes)
    (hunique : i.kind.isUnique = true) (hother : s.records[place]? = some other)
    (hskip : some place ≠ skip) : Separates i other r := by
  intro hindexed hr
  have hkey := not_sameKey_of_checkUnique hs hcheck hclass hname hi hunique hr hother hindexed hskip
  exact ⟨hkey, mt (sameKey_comm hliterals).mp hkey⟩

/-! ## Statements -/

/-- One element of a list is replaced by another that is related to the rest. -/
theorem pairwise_set {α : Type} {R : α → α → Prop} (hsymm : ∀ a b, R a b → R b a) {l : List α}
    (hl : l.Pairwise R) {place : Nat} {new : α}
    (hnew : ∀ other a, other ≠ place → l[other]? = some a → R a new) :
    (l.set place new).Pairwise R := by
  induction l generalizing place with
  | nil => exact List.Pairwise.nil
  | cons head tail ih =>
      obtain ⟨hhead, htail⟩ := List.pairwise_cons.mp hl
      cases place with
      | zero =>
          refine List.pairwise_cons.mpr ⟨fun a ha => ?_, htail⟩
          obtain ⟨other, hother⟩ := List.mem_iff_getElem?.mp ha
          exact hsymm _ _ (hnew (other + 1) a (Nat.succ_ne_zero other) hother)
      | succ place =>
          have hrest : (tail.set place new).Pairwise R :=
            ih htail fun other a hne ha => hnew (other + 1) a (fun h => hne (Nat.succ.inj h)) ha
          refine List.pairwise_cons.mpr ⟨fun a ha => ?_, hrest⟩
          rcases List.mem_or_eq_of_mem_set ha with hold | rfl
          · exact hhead a hold
          · exact hnew 0 head (Nat.succ_ne_zero place).symm rfl

/-- What holds of a store as long as unique indexes are created at the right time. -/
structure Indexed (s : Store) : Prop where
  coherent : s.Coherent
  literals : ∀ r ∈ s.records, HasLiterals r
  unique : s.UniqueIndexes

/-- The empty store has nothing to index. -/
theorem indexed_empty : Store.empty.Indexed where
  coherent := coherent_empty
  literals _ hr := nomatch hr
  unique _ hi := nomatch hi

/-- An update of one record keeps the indexes unique. -/
theorem Indexed.updateAt (hs : s.Indexed) {assignments : List Assignment}
    (hassignments : ∀ assignment ∈ assignments, assignment.2.isLiteral = true) {place : Nat}
    {after : Store} (h : s.updateAt assignments place = .ok after) : after.Indexed := by
  have hcoherent : after.Coherent := by
    rw [updateAt_ok h]
    exact hs.coherent.assignAt assignments [place]
  rcases updateAt_cases h with ⟨-, rfl⟩ | ⟨r, hr, hcheck, rfl⟩
  · exact hs
  · have hmem := List.mem_of_getElem? hr
    have hliterals : HasLiterals (r.setAll assignments) := (hs.literals r hmem).setAll hassignments
    obtain ⟨className, hname, hclass⟩ := hs.coherent.recordClasses r hmem
    rw [← RecordOf.setAll_className r assignments] at hclass
    refine ⟨hcoherent, fun other hother => ?_, fun i hi hunique => ?_⟩
    · rcases List.mem_or_eq_of_mem_set hother with hold | rfl
      · exact hs.literals other hold
      · exact hliterals
    · refine pairwise_set (fun _ _ => Separates.symm) (hs.unique i hi hunique) ?_
      intro other a hne ha
      exact separates_of_checkUnique hs.coherent hliterals hcheck hclass hname hi hunique ha
        (fun hsame => hne (Option.some.inj hsame))

/-- A new record that passes the check keeps the indexes unique. -/
theorem Indexed.withRecord (hs : s.Indexed) {className : String} {r : Record}
    (hclass : r.className = some className) (hname : className ∈ s.classNames)
    (hliterals : HasLiterals r) (hcheck : s.checkUnique r none = .ok ()) :
    (s.withRecord className r).UniqueIndexes := by
  intro i hi hunique
  refine List.pairwise_append.mpr ⟨hs.unique i hi hunique, List.pairwise_singleton _ _, ?_⟩
  intro other hother new hnew
  obtain ⟨place, hplace⟩ := List.mem_iff_getElem?.mp hother
  rw [List.mem_singleton.mp hnew]
  exact separates_of_checkUnique hs.coherent hliterals hcheck hclass hname hi hunique hplace
    (Option.some_ne_none place)

/-- The unique index that a statement creates, if it creates one. -/
def newUniqueIndex? (s : Store) : Statement → Option Index
  | .createIndex name className fields true =>
    match s.className className with
    | .ok className => some ⟨name, className, .unique, fields⟩
    | .error _ => none
  | _ => none

/-- Every statement keeps the records apart, provided that the unique index that it creates, if it
does, tells them apart already. -/
theorem Transition.indexed {after : Store} {statement : Statement}
    {answer : Except EngineError Outcome} (h : s.Transition statement answer after)
    (hs : s.Indexed) (hnew : ∀ i ∈ s.newUniqueIndex? statement, s.Distinguishes i) :
    after.Indexed := by
  have hcoherent := h.coherent hs.coherent
  have hupdate : ∀ className assignments condition places,
      s.ReadsUpdate statement className assignments condition →
      (updateEach assignments places s).2.Indexed := by
    intro className assignments condition places hread
    cases hread with
    | intro hclass hassignments hcondition =>
        exact updateEach_kept (fun t place next ht hnext =>
          ht.updateAt (assignmentsFrom_isLiteral hassignments) hnext) hs
  cases h with
  | refuse | select => exact hs
  | createClass | createProperty => exact ⟨hcoherent, hs.literals, hs.unique⟩
  | createIndex index name className fields unique hclass =>
      refine ⟨hcoherent, hs.literals, fun i hi hunique => ?_⟩
      rcases List.mem_append.mp hi with hold | hlast
      · exact hs.unique i hold hunique
      · rw [List.mem_singleton.mp hlast] at hunique ⊢
        cases unique with
        | false => exact absurd hunique Bool.false_ne_true
        | true => exact hnew _ (by rw [newUniqueIndex?, hclass]; rfl)
  | insert name className text assignments hclass hassignments hunique =>
      have hliterals : HasLiterals ((RecordOf.ofClass className).setAll assignments) :=
        HasLiterals.setAll (fun _ hfield => absurd hfield List.not_mem_nil)
          (assignmentsFrom_isLiteral hassignments)
      refine ⟨hcoherent, fun r hr => ?_, ?_⟩
      · rcases List.mem_append.mp hr with hold | hlast
        · exact hs.literals r hold
        · rw [List.mem_singleton.mp hlast]
          exact hliterals
      · exact hs.withRecord (RecordOf.setAll_className _ _) (mem_classNames_of_className hclass)
          hliterals hunique
  | update statement className assignments condition hread hpassed =>
      have hafter := hupdate _ _ _ (s.targetPlaces className condition) hread
      rw [hpassed] at hafter
      exact hafter
  | stop statement className assignments condition done place error hread hstop =>
      have hafter := hupdate _ _ _ done hread
      rw [hstop.passed] at hafter
      exact hafter
  | delete name className conditionText condition hclass hcondition =>
      exact ⟨hcoherent, fun r hr => hs.literals r (List.mem_of_mem_filter hr),
        fun i hi hunique => (hs.unique i hi hunique).filter _⟩

end Store

/-! ## Runs -/

/-- The unique index that a moment creates, if it creates one. -/
def Moment.newUniqueIndex? (m : Moment) : Option Index :=
  match m.action with
  | .apply text =>
    (Statement.read? (Store.statementText text)).bind m.before.current.newUniqueIndex?
  | _ => none

/-- In a run in which each unique index is created while it tells the records of its class apart,
all unique indexes do so in all stores. -/
theorem Database.always_uniqueIndexes (requests : List Request)
    (h : ∀ m ∈ Database.empty.moments requests, ∀ i ∈ m.newUniqueIndex?,
      m.before.current.Distinguishes i) :
    Database.empty.Always Store.UniqueIndexes requests := by
  have hindexed : Database.empty.Always Store.Indexed requests := by
    refine always_of_kept Store.indexed_empty fun m hm text haction hs => ?_
    refine Store.apply_kept hs fun statement hread => ?_
    refine (m.before.current.transition_run statement).indexed hs fun i hi => h m hm i ?_
    simp only [Moment.newUniqueIndex?, haction, hread]
    exact hi
  exact hindexed.mono fun s hs => hs.unique

/-- A unique index that is created on an empty class holds after an update that it stops, and
after a transaction that it stops. -/
theorem Database.uniqueIndex_after_stops :
    let requests : List Request := [.command "CREATE CLASS T",
      .command "CREATE INDEX i ON t (a, b) UNIQUE", .command "INSERT INTO T SET a = 1",
      .command "INSERT INTO T SET a = 2", .command "UPDATE T SET a = 3",
      .script "sql" "BEGIN\nINSERT INTO T SET a = 4\nINSERT INTO T SET a = 4\nCOMMIT\n"]
    (∀ m ∈ Database.empty.moments requests, ∀ i ∈ m.newUniqueIndex?,
      m.before.current.Distinguishes i) ∧
      Database.empty.Always Store.UniqueIndexes requests := by
  intro requests
  have hcreated : ∀ m ∈ Database.empty.moments requests, ∀ i ∈ m.newUniqueIndex?,
      m.before.current.Distinguishes i := by
    decide +kernel
  exact ⟨hcreated, Database.always_uniqueIndexes requests hcreated⟩

end Memory

end DocumentClient
