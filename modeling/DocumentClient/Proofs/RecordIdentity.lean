import DocumentClient.Proofs.CatalogCoherence
import DocumentClient.Proofs.RecordFields

/-!
# The identities of records

An inserted record gets the cluster of its class and the next position in it. `Identified` says
that the identities in a store are of this kind and that no two records share one. It is kept by
every statement as long as clusters and positions fit into their types
(`Transition.identified`), and then an identity that a live store has held is never given away
again (`always_identified`): a class keeps its cluster, and positions only go up.
-/

namespace DocumentClient.Memory

namespace Store

variable {s t : Store}

/-! ## Clusters and positions -/

/-- The cluster of a class is told by the place of the class in the catalog. -/
theorem clusterOf_of_mem {className : String} (h : className ∈ s.classNames) :
    s.clusterOf className = Int32.ofNat (firstCluster + s.classNames.idxOf className) := by
  obtain ⟨c, hc, rfl⟩ := List.mem_map.mp h
  have hfound : s.catalog.classes.findIdx? (·.name == c.name) =
      some (s.catalog.classes.findIdx (·.name == c.name)) :=
    List.findIdx?_eq_some_of_exists ⟨c, hc, beq_self_eq_true c.name⟩
  rw [clusterOf, hfound, Option.getD_some, classNames, List.idxOf, List.findIdx_map]
  rfl

/-- Setting the position of a class is setting a field of that name. -/
theorem setPosition_eq_setField (className : String) (position : Nat)
    (positions : List (String × Nat)) :
    setPosition className position positions =
      RecordOf.setField className position positions := by
  induction positions with
  | nil => rfl
  | cons entry positions ih =>
      rw [setPosition, RecordOf.setField, ih]
      split
      · next hname => rw [hname]
      · rfl

/-- An insertion moves on the next position of its class only. -/
theorem nextPosition_withRecord (s : Store) (className other : String) (r : Record) :
    (s.withRecord className r).nextPosition other =
      if other = className then s.nextPosition className + 1 else s.nextPosition other := by
  rw [nextPosition, withRecord, setPosition_eq_setField, RecordOf.lookup_setField]
  split <;> rfl

/-- The clusters and positions of a store fit into their types. -/
structure HasRoom (s : Store) : Prop where
  classes : s.catalog.classes.length < 2 ^ 31 - firstCluster
  positions : ∀ className, s.nextPosition className < 2 ^ 63

/-- `s.Precedes t` says that the classes of `s` have the same clusters in `t`, and that the
positions given out in `s` are given out in `t`. -/
structure Precedes (s t : Store) : Prop where
  classNames : s.classNames <+: t.classNames
  positions : ∀ className, s.nextPosition className ≤ t.nextPosition className

/-- A store precedes itself. -/
theorem Precedes.refl (s : Store) : s.Precedes s :=
  ⟨List.prefix_refl _, fun _ => Nat.le_refl _⟩

/-- What precedes a store precedes all later ones. -/
theorem Precedes.trans {u : Store} (hst : s.Precedes t) (htu : t.Precedes u) : s.Precedes u :=
  ⟨hst.classNames.trans htu.classNames,
    fun className => Nat.le_trans (hst.positions className) (htu.positions className)⟩

/-- A store before one with room has room itself. -/
theorem Precedes.hasRoom (h : s.Precedes t) (ht : t.HasRoom) : s.HasRoom where
  classes := by
    have hle := h.classNames.length_le
    rw [Store.classNames, Store.classNames, List.length_map, List.length_map] at hle
    exact Nat.lt_of_le_of_lt hle ht.classes
  positions className := Nat.lt_of_le_of_lt (h.positions className) (ht.positions className)

/-- A class stays in its place in the catalog. -/
theorem Precedes.idxOf_eq (h : s.Precedes t) {className : String}
    (hname : className ∈ s.classNames) :
    t.classNames.idxOf className = s.classNames.idxOf className := by
  obtain ⟨later, hlater⟩ := h.classNames
  rw [← hlater, List.idxOf_append_of_mem hname]

/-- No statement takes a cluster or a position back. -/
theorem Transition.precedes {after : Store} {statement : Statement}
    {answer : Except EngineError Outcome} (h : s.Transition statement answer after) :
    s.Precedes after := by
  cases h with
  | refuse | select | createIndex | update | stop | delete =>
      exact ⟨List.prefix_refl _, fun _ => Nat.le_refl _⟩
  | createClass name parent superClass =>
      refine ⟨?_, fun _ => Nat.le_refl _⟩
      rw [classNames_withClass]
      exact List.prefix_append _ _
  | createProperty name className property typeName type =>
      have hnames := classNames_withProperty s name property type
      exact ⟨hnames ▸ List.prefix_refl _, fun _ => Nat.le_refl _⟩
  | insert name className =>
      refine ⟨List.prefix_refl _, fun other => ?_⟩
      rw [nextPosition_withRecord]
      split
      · next hsame =>
          rw [hsame]
          exact Nat.le_succ _
      · exact Nat.le_refl _

/-- A statement only adds classes and moves positions on. -/
theorem precedes_apply (s : Store) (command : List Char) : s.Precedes (s.apply command).2 :=
  apply_kept (Precedes.refl s) fun statement _ => (s.transition_run statement).precedes

/-! ## Identities -/

/-- `s.Identifies rid className` says that the identity is one of the class: of its cluster, with
a position that was given out in it. -/
structure Identifies (s : Store) (rid : RecordId) (className : String) : Prop where
  isClass : className ∈ s.classNames
  cluster : rid.cluster.toInt = firstCluster + s.classNames.idxOf className
  position_nonneg : 0 ≤ rid.position.toInt
  position_lt : rid.position.toInt < s.nextPosition className

/-- Every record has an identity of its class, and no two records have the same one. -/
structure Identified (s : Store) : Prop where
  identity : ∀ r ∈ s.records, ∃ rid className,
    r.rid = some rid ∧ r.className = some className ∧ s.Identifies rid className
  distinct : (s.records.map (·.rid)).Nodup

/-- An identity that was given out stays one. -/
theorem Identifies.of_precedes {rid : RecordId} {className : String}
    (h : s.Identifies rid className) (hst : s.Precedes t) : t.Identifies rid className where
  isClass := hst.classNames.subset h.isClass
  cluster := by
    rw [hst.idxOf_eq h.isClass]
    exact h.cluster
  position_nonneg := h.position_nonneg
  position_lt := Int.lt_of_lt_of_le h.position_lt (Int.ofNat_le.mpr (hst.positions className))

/-- The identity of a record finds that record. -/
theorem Identified.load (hs : s.Identified) {r : Record} (hr : r ∈ s.records) :
    ∃ rid, r.rid = some rid ∧ s.load? rid = some r := by
  obtain ⟨rid, -, hrid, -⟩ := hs.identity r hr
  refine ⟨rid, hrid, ?_⟩
  cases hload : s.load? rid with
  | none =>
      have hmissing := List.find?_eq_none.mp hload r hr
      rw [hrid] at hmissing
      exact absurd (beq_self_eq_true (some rid)) hmissing
  | some found =>
      have hfound : found.rid = some rid := by simpa using List.find?_some hload
      have hmem : found ∈ s.records := List.mem_of_find?_eq_some hload
      rw [List.inj_on_of_nodup_map hs.distinct hmem hr (hfound.trans hrid.symm)]

/-- The identity that the next record of a class gets. -/
def nextRid (s : Store) (className : String) : RecordId :=
  ⟨s.clusterOf className, Int64.ofNat (s.nextPosition className)⟩

/-- As long as there is room, clusters are counted from the first one. -/
theorem nextRid_cluster (hs : s.HasRoom) {className : String} (h : className ∈ s.classNames) :
    (s.nextRid className).cluster.toInt = firstCluster + s.classNames.idxOf className := by
  have hlt := List.idxOf_lt_length_iff.mpr h
  rw [classNames, List.length_map] at hlt
  have hroom := hs.classes
  rw [nextRid, clusterOf_of_mem h, Int32.toInt_ofNat_of_lt]
  · exact Int.natCast_add _ _
  · unfold firstCluster at *
    rw [classNames]
    omega

/-- And positions from zero. -/
theorem nextRid_position (hs : s.HasRoom) (className : String) :
    (s.nextRid className).position.toInt = s.nextPosition className :=
  Int64.toInt_ofNat_of_lt (hs.positions className)

/-- The identity that a class gives next is that of no record in the stores before. -/
theorem Identified.rid_ne_nextRid (hs : s.Identified) (hst : s.Precedes t) (ht : t.HasRoom)
    {className : String} (hname : className ∈ t.classNames) {r : Record} (hr : r ∈ s.records) :
    r.rid ≠ some (t.nextRid className) := by
  intro hsame
  obtain ⟨rid, oldName, hrid, -, hold⟩ := hs.identity r hr
  obtain rfl : rid = t.nextRid className := Option.some.inj (hrid.symm.trans hsame)
  -- The cluster tells the class, and then the position is one that was given out before.
  have hcluster := (hold.of_precedes hst).cluster
  rw [nextRid_cluster ht hname] at hcluster
  have hindex : t.classNames.idxOf className = t.classNames.idxOf oldName := by omega
  obtain rfl := (List.idxOf_inj hname).mp hindex
  have hposition := (hold.of_precedes hst).position_lt
  rw [nextRid_position ht] at hposition
  exact Int.lt_irrefl _ hposition

/-- A store with no other records than an earlier one has no other identities either. -/
theorem Identified.of_sublist (hs : s.Identified) (hst : s.Precedes t)
    (h : (t.records.map fun r => (r.rid, r.className)).Sublist
      (s.records.map fun r => (r.rid, r.className))) : t.Identified where
  identity r hr := by
    have hmem := h.subset (List.mem_map_of_mem hr)
    obtain ⟨old, hold, hhead⟩ := List.mem_map.mp hmem
    obtain ⟨rid, className, hrid, hclass, hidentity⟩ := hs.identity old hold
    exact ⟨rid, className, (congrArg Prod.fst hhead).symm.trans hrid,
      (congrArg Prod.snd hhead).symm.trans hclass, hidentity.of_precedes hst⟩
  distinct := by
    have hrids := h.map Prod.fst
    rw [List.map_map, List.map_map] at hrids
    exact hrids.nodup hs.distinct

/-- A new record gets an identity that no record had before. -/
theorem Identified.withRecord (hs : s.Identified) {className : String} {r : Record}
    (hname : className ∈ s.classNames) (hclass : r.className = some className)
    (hroom : (s.withRecord className r).HasRoom)
    (hprecedes : s.Precedes (s.withRecord className r)) :
    (s.withRecord className r).Identified := by
  have hbefore := hprecedes.hasRoom hroom
  constructor
  case identity =>
    intro other hother
    rcases List.mem_append.mp hother with hold | hnew
    · obtain ⟨rid, name, hrid, hotherClass, hidentity⟩ := hs.identity other hold
      exact ⟨rid, name, hrid, hotherClass, hidentity.of_precedes hprecedes⟩
    · rw [List.mem_singleton.mp hnew]
      refine ⟨s.nextRid className, className, rfl, hclass, hname, ?_, ?_, ?_⟩
      · exact nextRid_cluster hbefore hname
      · rw [nextRid_position hbefore]
        exact Int.natCast_nonneg _
      · rw [nextRid_position hbefore, nextPosition_withRecord, if_pos rfl]
        exact Int.lt_succ _
  case distinct =>
    have hrecords : (s.withRecord className r).records.map (·.rid) =
        s.records.map (·.rid) ++ [some (s.nextRid className)] := List.map_append
    rw [hrecords]
    refine List.nodup_append.mpr ⟨hs.distinct, List.nodup_singleton _, ?_⟩
    intro old hold new hnew
    rw [List.mem_singleton.mp hnew]
    obtain ⟨other, hother, rfl⟩ := List.mem_map.mp hold
    exact hs.rid_ne_nextRid (Precedes.refl s) hbefore hname hother

/-- In an empty store there is nothing to identify. -/
theorem identified_empty : Store.empty.Identified where
  identity _ hr := nomatch hr
  distinct := List.nodup_nil

/-- Every statement keeps the records of a store identified, as long as there is room. -/
theorem Transition.identified {after : Store} {statement : Statement}
    {answer : Except EngineError Outcome} (h : s.Transition statement answer after)
    (hs : s.Identified) (hroom : after.HasRoom) : after.Identified := by
  have hprecedes := h.precedes
  cases h with
  | refuse | select => exact hs
  | createClass | createProperty | createIndex =>
      exact hs.of_sublist hprecedes (List.Sublist.refl _)
  | insert name className text assignments hclass hassignments hunique =>
      exact hs.withRecord (mem_classNames_of_className hclass) (RecordOf.setAll_className _ _)
        hroom hprecedes
  | update statement className assignments condition =>
      refine hs.of_sublist hprecedes ?_
      rw [assignAt_heads]
  | stop statement className assignments condition done =>
      refine hs.of_sublist hprecedes ?_
      rw [assignAt_heads]
  | delete => exact hs.of_sublist hprecedes (List.filter_sublist.map _)

/-- A statement keeps records identified as long as there is room. -/
theorem identified_apply (hs : s.HasRoom → s.Identified) (command : List Char)
    (hroom : (s.apply command).2.HasRoom) : (s.apply command).2.Identified := by
  refine apply_kept (P := fun t => t.HasRoom → t.Identified) hs (fun statement _ hafter => ?_) hroom
  have htransition := s.transition_run statement
  exact htransition.identified (hs (htransition.precedes.hasRoom hafter)) hafter

/-! ## Insertions -/

/-- The record that a statement has inserted, if it is an insertion and succeeded. -/
def insertedBy? : Statement → Except EngineError Outcome × Store → Option Record
  | .insert _ _, (.ok _, after) => after.records.getLast?
  | _, _ => none

/-- A statement inserts one record under the next identity of a class, or gives out none. -/
theorem Transition.insertedBy?_cases {after : Store} {statement : Statement}
    {answer : Except EngineError Outcome} (h : s.Transition statement answer after) :
    (∃ className ∈ s.classNames, ∃ r, r.className = some className ∧
      insertedBy? statement (answer, after) = some (r.withRid (s.nextRid className)) ∧
      after = s.withRecord className r) ∨
    (insertedBy? statement (answer, after) = none ∧ after.nextPositions = s.nextPositions) := by
  cases h with
  | refuse => exact .inr ⟨by cases statement <;> rfl, rfl⟩
  | createClass | createProperty | createIndex | delete | select => exact .inr ⟨rfl, rfl⟩
  | insert name className text assignments hclass =>
      exact .inl ⟨className, mem_classNames_of_className hclass, _,
        RecordOf.setAll_className _ _, List.getLast?_concat, rfl⟩
  | update _ _ _ _ hread | stop _ _ _ _ _ _ _ hread =>
      cases hread
      exact .inr ⟨rfl, rfl⟩

/-- The record that a command inserts, if it inserts one. -/
def inserted? (s : Store) (command : List Char) : Option Record :=
  (Statement.read? (statementText command)).bind fun statement =>
    insertedBy? statement (s.run statement)

/-- A statement inserts a record at the next position of its class, or it moves no position. -/
theorem inserted?_cases (s : Store) (command : List Char) :
    (∃ className ∈ s.classNames, ∃ r, r.className = some className ∧
      s.inserted? command = some (r.withRid (s.nextRid className)) ∧
      (s.apply command).2 = s.withRecord className r) ∨
    (s.inserted? command = none ∧ (s.apply command).2.nextPositions = s.nextPositions) := by
  rw [inserted?]
  cases hread : Statement.read? (statementText command) with
  | none =>
      rw [apply_of_unread hread]
      exact .inr ⟨rfl, rfl⟩
  | some statement =>
      rw [apply_of_read hread]
      exact (s.transition_run statement).insertedBy?_cases

end Store

/-! ## Runs -/

/-- The record that a moment inserts into the store that it finds, if it inserts one. -/
def Moment.inserted? (m : Moment) : Option Record :=
  match m.action with
  | .apply command => m.before.current.inserted? command
  | _ => none

/-- How many of the moments insert a record of a class. -/
def insertions (className : String) (moments : List Moment) : Nat :=
  moments.countP fun m => m.inserted?.any fun r => r.className == some className

/-- No record is inserted under an identity that a record of a live store has had before, whether
that record is still there or not. -/
def NeverReused (moments : List Moment) : Prop :=
  ∀ earlier m later, moments = earlier ++ m :: later → ∀ r ∈ m.inserted?,
    ∀ past ∈ earlier ++ [m], ∀ old ∈ past.before.live.records, old.rid ≠ r.rid

/-- A class has given out no more positions than records were inserted in it. -/
def Store.CountsWithin (history : List Moment) (s : Store) : Prop :=
  ∀ className, s.nextPosition className ≤ insertions className history

/-- The positions of a class count the insertions so far, also after one more action. -/
theorem Store.CountsWithin.act {history : List Moment} {p : Progress} {action : Progress.Action}
    (h : p.Everywhere (Store.CountsWithin history)) :
    (p.act action).Everywhere (Store.CountsWithin (history ++ [⟨p, action⟩])) := by
  have hcount : ∀ className, insertions className (history ++ [⟨p, action⟩]) =
      insertions className history + insertions className [⟨p, action⟩] :=
    fun className => List.countP_append
  refine (h.mono fun s hs className => ?_).act fun command haction className => ?_
  · rw [hcount]
    exact Nat.le_add_right_of_le (hs className)
  · subst haction
    have hbefore := h.current className
    rw [hcount]
    rcases p.current.inserted?_cases command with
      ⟨name, -, r, hclass, hinserted, hafter⟩ | ⟨-, hafter⟩
    · rw [hafter, Store.nextPosition_withRecord]
      split
      · next hsame =>
          have hone : insertions className [⟨p, .apply command⟩] = 1 := by
            simp [insertions, Moment.inserted?, hinserted, RecordOf.withRid, hclass, hsame]
          rw [hone, ← hsame]
          exact Nat.succ_le_succ hbefore
      · exact Nat.le_add_right_of_le hbefore
    · rw [Store.nextPosition, hafter]
      exact Nat.le_add_right_of_le hbefore

/-- An inserted record has the next identity of a class. -/
theorem Moment.rid_of_inserted? {m : Moment} {r : Record} (h : r ∈ m.inserted?) :
    ∃ className ∈ m.before.current.classNames,
      r.rid = some (m.before.current.nextRid className) := by
  unfold Moment.inserted? at h
  split at h
  · next command haction =>
      rcases m.before.current.inserted?_cases command with
        ⟨className, hname, inserted, -, hinserted, -⟩ | ⟨hnone, -⟩
      · rw [hinserted] at h
        obtain rfl := Option.some.inj h
        exact ⟨className, hname, rfl⟩
      · rw [hnone] at h
        exact nomatch h
  · exact nomatch h

namespace Database

variable {requests : List Request}

/-- A run with few classes and few insertions never runs out of clusters and positions. -/
theorem always_hasRoom
    (hclasses : empty.Always
      (fun s => s.catalog.classes.length < 2 ^ 31 - Store.firstCluster) requests)
    (hinsertions : ∀ className, insertions className (empty.moments requests) < 2 ^ 63) :
    empty.Always Store.HasRoom requests := by
  have hpositions : empty.Always (fun s => ∀ className, s.nextPosition className < 2 ^ 63)
      requests := by
    refine always_of_history (Q := Store.CountsWithin) (fun _ => Nat.le_refl _)
      (fun history p action hp => Store.CountsWithin.act hp)
      (fun history hinit s hs className => ?_)
    have hle : insertions className history ≤ insertions className (empty.moments requests) :=
      hinit.sublist.countP_le
    exact Nat.lt_of_le_of_lt (hs className) (Nat.lt_of_le_of_lt hle (hinsertions className))
  exact (hclasses.and hpositions).mono fun s hs => ⟨hs.1, hs.2⟩

/-- In a run with few classes and few insertions all records of all stores are identified, an
identity finds its record, and no identity is used again. -/
theorem always_identified (requests : List Request)
    (hclasses : empty.Always
      (fun s => s.catalog.classes.length < 2 ^ 31 - Store.firstCluster) requests)
    (hinsertions : ∀ className, insertions className (empty.moments requests) < 2 ^ 63) :
    empty.Always (fun s => s.Identified ∧
      ∀ r ∈ s.records, ∃ rid, r.rid = some rid ∧ s.load? rid = some r) requests ∧
    NeverReused (empty.moments requests) := by
  have hroom := always_hasRoom hclasses hinsertions
  have hidentified : empty.Always Store.Identified requests := by
    -- Without the bounds no statement keeps the invariant, so they are part of it at first.
    have hkept : empty.Always (fun s => s.HasRoom → s.Identified) requests :=
      always_of_kept (fun _ => Store.identified_empty) fun m _ command _ hs =>
        Store.identified_apply hs command
    exact (hkept.and hroom).mono fun s hs => hs.1 hs.2
  refine ⟨hidentified.mono fun s hs => ⟨hs, fun r hr => hs.load hr⟩, ?_⟩
  intro earlier m later hsplit r hr past hpast old hold
  have hmoments : empty.moments requests = (earlier ++ [m]) ++ later := by
    rw [hsplit, List.append_assoc, List.singleton_append]
  have hmem : ∀ other ∈ earlier ++ [m], other ∈ empty.moments requests := by
    intro other hother
    rw [hmoments]
    exact List.mem_append_left _ hother
  have hm := hmem m (List.mem_append_right _ (List.mem_singleton.mpr rfl))
  have hprecedes : past.before.live.Precedes m.before.current :=
    live_below_current Store.Precedes.refl (fun _ _ _ => Store.Precedes.trans)
      Store.precedes_apply hsplit past hpast
  obtain ⟨className, hname, hrid⟩ := Moment.rid_of_inserted? hr
  rw [hrid]
  exact (hidentified.before past (hmem past hpast)).live.rid_ne_nextRid hprecedes
    (hroom.before m hm).current hname hold

/-- A record is deleted, and a second one is inserted in a transaction that is dropped. The next
record does not get the identity of the first one, which has been in the live store, but it does
get that of the second one. -/
theorem identity_after_deletion :
    let requests : List Request := [.command "CREATE CLASS T", .command "INSERT INTO t SET a = 1",
      .command "DELETE FROM T", .script "sql" "BEGIN\nINSERT INTO T SET a = 2\n",
      .command "INSERT INTO T SET a = 3"]
    empty.Always (fun s => s.catalog.classes.length < 2 ^ 31 - Store.firstCluster) requests ∧
      (∀ className, insertions className (empty.moments requests) < 2 ^ 63) ∧
      ((empty.moments requests).filterMap Moment.inserted?).map (·.rid) =
        [some ⟨10, 0⟩, some ⟨10, 1⟩, some ⟨10, 1⟩] ∧
      empty.Always (fun s => s.Identified ∧
        ∀ r ∈ s.records, ∃ rid, r.rid = some rid ∧ s.load? rid = some r) requests ∧
      NeverReused (empty.moments requests) := by
  intro requests
  have hclasses : empty.Always
      (fun s => s.catalog.classes.length < 2 ^ 31 - Store.firstCluster) requests := by
    decide +kernel
  have hmoments : (empty.moments requests).length < 2 ^ 63 := by decide +kernel
  have hinsertions : ∀ className, insertions className (empty.moments requests) < 2 ^ 63 :=
    fun className => Nat.lt_of_le_of_lt List.countP_le_length hmoments
  exact ⟨hclasses, hinsertions, by decide +kernel,
    always_identified requests hclasses hinsertions⟩

end Database

end DocumentClient.Memory
