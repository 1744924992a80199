import DocumentClient.Proofs.TableNames
import Mathlib.Data.List.Sort
import Mathlib.Data.List.SplitBy

/-!
# Keys and indexes of a table

The indexes of a table are listed twice: one row for each index, in the order of their names, and
one row for each field of a unique index, in the order of the catalog. `IndexListingsAgree` says how
the two go together, and `indexListingsAgree` that they always do. The rows of a key are found by
cutting in front of each row with number 1. These numbers have 32 bits, so the keys can be told from
the rows exactly as long as no index has so many fields that their numbers leave this range;
`not_keysMatch_overlong` is an index that has.
-/

namespace DocumentClient

namespace Row

/-- The text in a column. -/
def text? (row : Row) (column : String) : Option String :=
  (row.find? column).bind Value.asString?

/-- The truth value in a column. -/
def flag? (row : Row) (column : String) : Option Bool :=
  (row.find? column).bind Value.asBool?

/-- The integer in a column. -/
def number? (row : Row) (column : String) : Option Int :=
  ((row.find? column).bind Value.asInt64?).map Int64.toInt

/-- The row of a record in a table that has its fields as columns. -/
def ofRecord (r : Record) : Row :=
  QueryResult.rowOf r.fieldNames r

/-- The cell of a column is the field of its name. -/
theorem find?_ofRecord (r : Record) (name : String) : (ofRecord r).find? name = r.get? name := by
  rw [ofRecord, QueryResult.find?_rowOf]
  split
  · next hname =>
      cases hvalue : r.get? name with
      | none => exact absurd hname ((r.get?_eq_none_iff name).mp hvalue)
      | some value => rfl
  · next hname => exact ((r.get?_eq_none_iff name).mpr hname).symm

end Row

namespace QueryResult

variable {records : List Record} {names : List String}

/-- Without duplicates there are none to erase. -/
theorem eraseDups_of_nodup (h : names.Nodup) : names.eraseDups = names := by
  induction names with
  | nil => rfl
  | cons name names ih =>
      obtain ⟨hname, hnames⟩ := List.nodup_cons.mp h
      have hkept : names.filter (fun other => !other == name) = names := by
        refine List.filter_eq_self.mpr fun other hother => ?_
        simpa using ne_of_mem_of_not_mem hother hname
      rw [List.eraseDups_cons, hkept, ih hnames]

/-- Records with the same fields make columns of these fields. -/
theorem columnNames_of_alike (hnodup : names.Nodup) (h : ∀ r ∈ records, r.fieldNames = names)
    (hne : records ≠ []) : columnNames records = names := by
  cases records with
  | nil => exact absurd rfl hne
  | cons r records =>
      obtain ⟨hr, hrecords⟩ := List.forall_mem_cons.mp h
      have hold : (records.flatMap RecordOf.fieldNames).removeAll names = [] := by
        refine List.filter_eq_nil_iff.mpr fun name hname => ?_
        obtain ⟨other, hother, hfield⟩ := List.mem_flatMap.mp hname
        rw [hrecords other hother] at hfield
        simpa using hfield
      rw [columnNames, List.flatMap_cons, hr, List.eraseDups_append, hold, List.eraseDups_nil,
        List.append_nil, eraseDups_of_nodup hnodup]

/-- In a table of records with the same fields, each row stands for itself. -/
theorem rows_tabulate_of_alike (hnodup : names.Nodup) (h : ∀ r ∈ records, r.fieldNames = names) :
    (tabulate records).rows = records.map Row.ofRecord := by
  show records.map (rowOf (columnNames records)) = _
  refine List.map_congr_left fun r hr => ?_
  rw [columnNames_of_alike hnodup h (List.ne_nil_of_mem hr), Row.ofRecord, h r hr]

end QueryResult

namespace Listing

variable {database table : String} {catalog : Catalog} {indexes : List Index}

/-- The rows of the table of a listing. -/
def rows [ExpressionCompiler] (database : String) (catalog : Catalog) (listing : Listing) :
    List Row :=
  (QueryResult.tabulate (listing.records database catalog)).rows

/-! ## Sorting indexes -/

/-- The first index does not come after the second one by its name. -/
def NameLe (a b : Index) : Prop :=
  a.name ≤ b.name

instance : DecidableRel NameLe :=
  fun a b => inferInstanceAs (Decidable (a.name ≤ b.name))

instance : Std.Total NameLe :=
  ⟨fun a b => Std.Total.total a.name b.name⟩

instance : IsTrans Index NameLe :=
  ⟨fun _ _ _ => String.le_trans⟩

/-- Putting an index at its place is insertion in order. -/
theorem insertIndex_eq (i : Index) (indexes : List Index) :
    insertIndex i indexes = indexes.orderedInsert NameLe i := by
  induction indexes with
  | nil => rfl
  | cons other rest ih =>
      rw [insertIndex, List.orderedInsert_cons, ih]
      by_cases h : other.name < i.name
      · have hle : ¬ NameLe i other := String.not_le.mpr h
        rw [if_pos h, if_neg hle]
      · have hle : NameLe i other := String.not_lt.mp h
        rw [if_neg h, if_pos hle]

/-- The indexes are sorted by insertion. -/
theorem sortIndexes_eq (indexes : List Index) :
    sortIndexes indexes = indexes.insertionSort NameLe := by
  induction indexes with
  | nil => rfl
  | cons i indexes ih =>
      rw [List.insertionSort_cons, ← ih, ← insertIndex_eq]
      rfl

/-- Sorted indexes are in the order of their names. -/
theorem pairwise_sortIndexes (indexes : List Index) : (sortIndexes indexes).Pairwise NameLe := by
  rw [sortIndexes_eq]
  exact List.pairwise_insertionSort NameLe indexes

/-- What comes before all others is put in front. -/
theorem orderedInsert_front {i : Index} (h : ∀ other ∈ indexes, NameLe i other) :
    indexes.orderedInsert NameLe i = i :: indexes := by
  cases indexes with
  | nil => rfl
  | cons other rest => exact List.orderedInsert_cons_of_le NameLe rest (h other List.mem_cons_self)

/-- An index that is put among sorted ones is put at the same place among some of them. -/
theorem filter_orderedInsert (keep : Index → Bool) (i : Index) (h : indexes.Pairwise NameLe) :
    (indexes.orderedInsert NameLe i).filter keep =
      if keep i then (indexes.filter keep).orderedInsert NameLe i else indexes.filter keep := by
  induction indexes with
  | nil => cases hi : keep i <;> simp [hi]
  | cons other rest ih =>
      obtain ⟨hother, hrest⟩ := List.pairwise_cons.mp h
      rw [List.orderedInsert_cons]
      split
      · next hle =>
          -- All that is kept comes after the new index, so that it is put in front again.
          have hfront : ∀ kept ∈ (other :: rest).filter keep, NameLe i kept := by
            intro kept hkept
            rcases List.mem_cons.mp (List.mem_filter.mp hkept).1 with rfl | hmem
            · exact hle
            · exact String.le_trans hle (hother kept hmem)
          rw [List.filter_cons]
          split
          · exact (orderedInsert_front hfront).symm
          · rfl
      · next hle =>
          rw [List.filter_cons, List.filter_cons, ih hrest]
          cases hkeep : keep other with
          | false => simp
          | true =>
              simp only [if_true]
              split
              · rw [List.orderedInsert_of_not_le NameLe _ hle]
              · rfl

/-- Indexes can be left out before they are sorted or after. -/
theorem filter_sortIndexes (keep : Index → Bool) (indexes : List Index) :
    (sortIndexes indexes).filter keep = sortIndexes (indexes.filter keep) := by
  induction indexes with
  | nil => rfl
  | cons i indexes ih =>
      have hsorted := pairwise_sortIndexes indexes
      rw [sortIndexes_eq, List.insertionSort_cons, ← sortIndexes_eq,
        filter_orderedInsert keep i hsorted, ih, List.filter_cons]
      split
      · rw [sortIndexes_eq, sortIndexes_eq, List.insertionSort_cons]
      · rfl

/-- Indexes of one name keep their order. -/
theorem filter_sortIndexes_name (name : String) (indexes : List Index) :
    (sortIndexes indexes).filter (·.name == name) = indexes.filter (·.name == name) := by
  rw [filter_sortIndexes, sortIndexes_eq]
  refine List.Pairwise.insertionSort_eq (List.pairwise_of_forall_mem_list ?_)
  intro a ha b hb
  have hname := (beq_iff_eq.mp (List.mem_filter.mp ha).2).trans
    (beq_iff_eq.mp (List.mem_filter.mp hb).2).symm
  exact (String.le_refl _).trans_eq hname

/-! ## Rows of indexes -/

/-- The indexes of a table that are listed, in the order of the catalog. -/
def listedIndexes (catalog : Catalog) (table : String) (uniqueOnly : Bool) : List Index :=
  (catalog.indexesOf table).filter fun i => !uniqueOnly || i.kind.isUnique

/-- The row of an index in its listing. -/
def indexEntry (database table : String) (i : Index) : Row :=
  .ofRecord (indexRow database table i)

/-- The columns of the listing of indexes. -/
def indexColumns : List String :=
  ["TABLE_CAT", "TABLE_SCHEM", "TABLE_NAME", "NON_UNIQUE", "INDEX_QUALIFIER", "INDEX_NAME", "TYPE",
    "ORDINAL_POSITION", "COLUMN_NAME", "ASC_OR_DESC"]

/-- The rows of the listing of indexes. -/
theorem rows_indexInfo [ExpressionCompiler] (database : String) (catalog : Catalog)
    (table : String) (uniqueOnly : Bool) : rows database catalog (indexInfo table uniqueOnly) =
      (sortIndexes (listedIndexes catalog table uniqueOnly)).map (indexEntry database table) := by
  have halike : ∀ r ∈ (indexInfo table uniqueOnly).records database catalog,
      r.fieldNames = indexColumns := by
    intro r hr
    obtain ⟨i, -, rfl⟩ := List.mem_map.mp hr
    rfl
  rw [rows, QueryResult.rows_tabulate_of_alike (by decide) halike]
  exact List.map_map

/-- The row of an index says whether the index is unique. -/
theorem nonUnique_indexEntry (database table : String) (i : Index) :
    (indexEntry database table i).flag? "NON_UNIQUE" = some (!i.kind.isUnique) := by
  rw [Row.flag?, indexEntry, Row.find?_ofRecord, indexRow, RecordOf.get?_ofFields]
  rfl

/-- The row of an index gives its name. -/
theorem indexName_indexEntry (database table : String) (i : Index) :
    (indexEntry database table i).text? "INDEX_NAME" = some i.name := by
  rw [Row.text?, indexEntry, Row.find?_ofRecord, indexRow, RecordOf.get?_ofFields]
  rfl

/-- The row of an index gives its fields, parted by commas. -/
theorem columnName_indexEntry (database table : String) (i : Index) :
    (indexEntry database table i).text? "COLUMN_NAME" = some (", ".intercalate i.fields) := by
  rw [Row.text?, indexEntry, Row.find?_ofRecord, indexRow, RecordOf.get?_ofFields]
  rfl

/-! ## Rows of keys -/

/-- The row of a field of a unique index in the listing of keys. -/
def keyEntry (database table : String) (i : Index) (position : Nat) (field : String) : Row :=
  .ofRecord (primaryKeyRow database table i position field)

/-- The rows of the fields of a unique index. -/
def keyEntries (database table : String) (i : Index) : List Row :=
  i.fields.mapIdx (keyEntry database table i)

/-- The columns of the listing of keys. -/
def keyColumns : List String :=
  ["TABLE_CAT", "TABLE_SCHEM", "TABLE_NAME", "COLUMN_NAME", "KEY_SEQ", "PK_NAME"]

/-- The rows of the listing of keys, index by index. -/
theorem rows_primaryKeys [ExpressionCompiler] (database : String) (catalog : Catalog)
    (table : String) :
    rows database catalog (primaryKeys table) =
      (listedIndexes catalog table true).flatMap (keyEntries database table) := by
  have halike : ∀ r ∈ (primaryKeys table).records database catalog,
      r.fieldNames = keyColumns := by
    intro r hr
    obtain ⟨i, -, hrow⟩ := List.mem_flatMap.mp hr
    obtain ⟨position, hposition, rfl⟩ := List.mem_mapIdx.mp hrow
    rfl
  rw [rows, QueryResult.rows_tabulate_of_alike (by decide) halike]
  show (List.flatMap _ (listedIndexes catalog table true)).map Row.ofRecord = _
  rw [List.map_flatMap]
  refine congrArg (List.flatMap · _) (funext fun i => ?_)
  exact List.ext_getElem (by simp [keyEntries]) fun position _ _ => by simp [keyEntries, keyEntry]

/-- The row of a key gives the field it is about. -/
theorem columnName_keyEntry (database table : String) (i : Index) (position : Nat)
    (field : String) :
    (keyEntry database table i position field).text? "COLUMN_NAME" = some field := by
  rw [Row.text?, keyEntry, Row.find?_ofRecord, primaryKeyRow, RecordOf.get?_ofFields]
  rfl

/-- The row of a key gives the name of its index. -/
theorem keyName_keyEntry (database table : String) (i : Index) (position : Nat)
    (field : String) :
    (keyEntry database table i position field).text? "PK_NAME" = some i.name := by
  rw [Row.text?, keyEntry, Row.find?_ofRecord, primaryKeyRow, RecordOf.get?_ofFields]
  rfl

/-- The row of a key gives the position of the field in its index, in 32 bits. -/
theorem keySeq_keyEntry (database table : String) (i : Index) (position : Nat)
    (field : String) : (keyEntry database table i position field).number? "KEY_SEQ" =
      some (Int32.ofNat (position + 1)).toInt := by
  rw [Row.number?, keyEntry, Row.find?_ofRecord, primaryKeyRow, RecordOf.get?_ofFields]
  show some (Int32.ofNat (position + 1)).toInt64.toInt = _
  rw [Int32.toInt_toInt64]

/-! ## Keys told from the rows -/

/-- Rows of keys, cut in front of each row with number 1. -/
def keyBlocks (rows : List Row) : List (List Row) :=
  rows.splitBy fun _ next => next.number? "KEY_SEQ" != some 1

/-- The rows show a key: its fields in order, numbered from 1, under one name. -/
structure IsKey (block : List Row) (name : String) (fields : List String) : Prop where
  numbered : block.map (·.number? "KEY_SEQ") =
    (List.range fields.length).map fun position : Nat => some ((position : Int) + 1)
  named : ∀ row ∈ block, row.text? "PK_NAME" = some name
  fields : block.map (·.text? "COLUMN_NAME") = fields.map some

/-- The rows of keys show keys, and these are the unique indexes that have a field: as often as a
name stands with some fields there, it stands with them here. -/
def KeysMatch [ExpressionCompiler] (database : String) (catalog : Catalog) (table : String) :
    Prop :=
  ∃ (keys : List (String × List String)) (indexes : List Index),
    List.Forall₂ (fun block key => IsKey block key.1 key.2)
      (keyBlocks (rows database catalog (primaryKeys table))) keys ∧
    indexes.Perm (listedIndexes catalog table true) ∧
    rows database catalog (indexInfo table true) = indexes.map (indexEntry database table) ∧
    (keys.map fun key => (some key.1, some (", ".intercalate key.2))).Perm
      (((indexes.filter (!·.fields.isEmpty)).map (indexEntry database table)).map fun row =>
        (row.text? "INDEX_NAME", row.text? "COLUMN_NAME"))

/-- The fields of the index can be numbered with 32 bits. -/
def Numberable (i : Index) : Prop :=
  i.fields.length < 2147483648

/-- The fields of an index that is not too long are numbered from 1. -/
theorem keySeq_of_numberable {i : Index} (h : Numberable i) {position : Nat}
    (hposition : position < i.fields.length) (field : String) :
    (keyEntry database table i position field).number? "KEY_SEQ" = some ((position : Int) + 1) := by
  have hword : position + 1 < 2147483648 := Nat.lt_of_le_of_lt hposition h
  rw [keySeq_keyEntry, Int32.toInt_ofNat_of_lt hword]
  rfl

/-- Its rows show the index as a key. -/
theorem isKey_keyEntries (database table : String) {i : Index} (h : Numberable i) :
    IsKey (keyEntries database table i) i.name i.fields where
  numbered := by
    refine List.ext_getElem (by simp [keyEntries]) fun position hposition _ => ?_
    simp only [keyEntries, List.length_map, List.length_mapIdx] at hposition
    simp only [keyEntries, List.getElem_map, List.getElem_mapIdx, List.getElem_range]
    exact keySeq_of_numberable h hposition _
  named row hrow := by
    obtain ⟨position, hposition, rfl⟩ := List.mem_mapIdx.mp hrow
    exact keyName_keyEntry database table i position _
  fields := by
    refine List.ext_getElem (by simp [keyEntries]) fun position _ _ => ?_
    simp only [keyEntries, List.getElem_map, List.getElem_mapIdx]
    exact columnName_keyEntry database table i position _

/-- The rows of keys are those of the unique indexes that have a field. -/
theorem flatten_keyEntries (database table : String) (indexes : List Index) :
    indexes.flatMap (keyEntries database table) =
      ((indexes.filter (!·.fields.isEmpty)).map (keyEntries database table)).flatten := by
  induction indexes with
  | nil => rfl
  | cons i indexes ih =>
      rw [List.flatMap_cons, ih]
      cases hfields : i.fields with
      | nil => simp [hfields, keyEntries]
      | cons field fields => simp [hfields]

/-- The rows of several such indexes are cut where one index ends and the next begins. -/
theorem keyBlocks_flatten (h : ∀ i ∈ indexes, Numberable i ∧ i.fields ≠ []) :
    keyBlocks (indexes.map (keyEntries database table)).flatten =
      indexes.map (keyEntries database table) := by
  have hne : ∀ block ∈ indexes.map (keyEntries database table), block ≠ [] := by
    intro block hblock
    obtain ⟨i, hi, rfl⟩ := List.mem_map.mp hblock
    exact mt List.mapIdx_eq_nil_iff.mp (h i hi).2
  refine List.splitBy_flatten (fun hnil => hne [] hnil rfl) ?_ ?_
  · intro block hblock
    obtain ⟨i, hi, rfl⟩ := List.mem_map.mp hblock
    refine List.isChain_iff_getElem.mpr fun position hposition => ?_
    -- Only the first row of an index has number 1.
    simp only [keyEntries, List.length_mapIdx] at hposition
    simp only [keyEntries, List.getElem_mapIdx, keySeq_of_numberable (h i hi).1 hposition]
    simp only [bne_iff_ne, ne_eq, Option.some.injEq]
    omega
  · refine (List.pairwise_of_forall_mem_list fun block hblock next hnext => ?_).isChain
    refine ⟨hne block hblock, hne next hnext, ?_⟩
    obtain ⟨i, hi, rfl⟩ := List.mem_map.mp hnext
    have hlength := List.length_pos_iff.mpr (h i hi).2
    simp only [keyEntries, List.head_eq_getElem, List.getElem_mapIdx,
      keySeq_of_numberable (h i hi).1 hlength]
    rfl

/-! ## The two listings -/

section TwoListings

variable [ExpressionCompiler]

/-- How the listings of the keys and of the indexes of a table go together. -/
structure IndexListingsAgree (database : String) (catalog : Catalog) (table : String) : Prop where
  /-- The unique indexes are listed as they are among all indexes. -/
  unique : rows database catalog (indexInfo table true) =
    (rows database catalog (indexInfo table false)).filter (·.flag? "NON_UNIQUE" == some false)
  ordered : ∀ uniqueOnly, (rows database catalog (indexInfo table uniqueOnly)).Pairwise fun a b =>
    ∃ first second, a.text? "INDEX_NAME" = some first ∧ b.text? "INDEX_NAME" = some second ∧
      first ≤ second
  /-- Indexes of one name are listed in the order of the catalog. -/
  catalogOrder : ∀ uniqueOnly name,
    (rows database catalog (indexInfo table uniqueOnly)).filter
        (·.text? "INDEX_NAME" == some name) =
      ((listedIndexes catalog table uniqueOnly).filter (·.name == name)).map
        (indexEntry database table)
  /-- The numbers of the fields are words of 32 bits, which count up to 2147483647. -/
  keys : KeysMatch database catalog table ↔
    ∀ i ∈ listedIndexes catalog table true, Numberable i

/-- Listing the unique indexes is choosing them from the listing of all. -/
theorem unique_rows_indexInfo (database : String) (catalog : Catalog) (table : String) :
    rows database catalog (indexInfo table true) =
      (rows database catalog (indexInfo table false)).filter
        (·.flag? "NON_UNIQUE" == some false) := by
  have hflag : (fun row : Row => row.flag? "NON_UNIQUE" == some false) ∘ indexEntry database table =
      fun i => i.kind.isUnique := by
    funext i
    simp [nonUnique_indexEntry]
  rw [rows_indexInfo, rows_indexInfo, List.filter_map, hflag, filter_sortIndexes]
  simp [listedIndexes]

/-- Sorting keeps the order of indexes of one name. -/
theorem catalogOrder_rows_indexInfo (database : String) (catalog : Catalog) (table : String)
    (uniqueOnly : Bool) (name : String) :
    (rows database catalog (indexInfo table uniqueOnly)).filter
        (·.text? "INDEX_NAME" == some name) =
      ((listedIndexes catalog table uniqueOnly).filter (·.name == name)).map
        (indexEntry database table) := by
  have hname : (fun row : Row => row.text? "INDEX_NAME" == some name) ∘ indexEntry database table =
      fun i => i.name == name := by
    funext i
    simp [indexName_indexEntry]
  rw [rows_indexInfo, List.filter_map, hname, filter_sortIndexes_name]

/-- If all fields can be numbered, then the rows of keys show the unique indexes. -/
theorem keysMatch_of_numberable (database : String)
    (h : ∀ i ∈ listedIndexes catalog table true, Numberable i) :
    KeysMatch database catalog table := by
  have hsorted := perm_sortIndexes (listedIndexes catalog table true)
  refine ⟨((listedIndexes catalog table true).filter (!·.fields.isEmpty)).map fun i =>
    (i.name, i.fields), sortIndexes (listedIndexes catalog table true), ?_, hsorted,
    rows_indexInfo database catalog table true, ?_⟩
  · have hlisted : ∀ i ∈ (listedIndexes catalog table true).filter (!·.fields.isEmpty),
        Numberable i ∧ i.fields ≠ [] := by
      intro i hi
      obtain ⟨hmem, hfields⟩ := List.mem_filter.mp hi
      exact ⟨h i hmem, by simpa using hfields⟩
    rw [rows_primaryKeys, flatten_keyEntries, keyBlocks_flatten hlisted, List.forall₂_map_left_iff,
      List.forall₂_map_right_iff]
    exact List.forall₂_same.mpr fun i hi => isKey_keyEntries database table (hlisted i hi).1
  · simp only [List.map_map, Function.comp_def, indexName_indexEntry, columnName_indexEntry]
    exact ((hsorted.filter _).map _).symm

/-- From the field with number 2147483648 on, the numbers are negative. -/
theorem numberable_of_keysMatch (h : KeysMatch database catalog table) :
    ∀ i ∈ listedIndexes catalog table true, Numberable i := by
  intro i hi
  refine Nat.lt_of_not_le fun hlong => ?_
  have hplace : 2147483647 < i.fields.length := hlong
  have hrow : keyEntry database table i 2147483647 i.fields[2147483647] ∈
      rows database catalog (primaryKeys table) := by
    rw [rows_primaryKeys]
    exact List.mem_flatMap.mpr ⟨i, hi, List.mem_mapIdx.mpr ⟨2147483647, hplace, rfl⟩⟩
  obtain ⟨keys, indexes, hkeys, -⟩ := h
  have hall : ∀ block ∈ keyBlocks (rows database catalog (primaryKeys table)),
      ∃ name fields, IsKey block name fields :=
    ((List.forall₂_and_left _ _).mp (hkeys.imp fun _ key h => ⟨⟨key.1, key.2, h⟩, h⟩)).1
  rw [← List.flatten_splitBy (fun _ next => next.number? "KEY_SEQ" != some 1)
    (rows database catalog (primaryKeys table))] at hrow
  obtain ⟨block, hblock, hrow⟩ := List.mem_flatten.mp hrow
  obtain ⟨name, fields, hkey⟩ := hall block hblock
  have hnumber := List.mem_map_of_mem (f := fun row : Row => row.number? "KEY_SEQ") hrow
  rw [hkey.numbered, keySeq_keyEntry] at hnumber
  obtain ⟨position, -, hposition⟩ := List.mem_map.mp hnumber
  have hnegative : (Int32.ofNat (2147483647 + 1)).toInt = -2147483648 := by decide
  rw [hnegative, Option.some.injEq] at hposition
  omega

/-- The unique indexes are listed as among all indexes, in the order of their names, and the keys
are exactly the unique indexes that have a field, as long as their fields can be numbered. -/
theorem indexListingsAgree (database : String) (catalog : Catalog) (table : String) :
    IndexListingsAgree database catalog table where
  unique := unique_rows_indexInfo database catalog table
  ordered uniqueOnly := by
    rw [rows_indexInfo, List.pairwise_map]
    refine (pairwise_sortIndexes _).imp fun {a b} hle => ?_
    exact ⟨a.name, b.name, indexName_indexEntry _ _ a, indexName_indexEntry _ _ b, hle⟩
  catalogOrder := catalogOrder_rows_indexInfo database catalog table
  keys := ⟨numberable_of_keysMatch, keysMatch_of_numberable database⟩

end TwoListings

/-- A catalog with one unique index, over these fields. -/
def indexedBy (fields : List String) : Catalog :=
  ⟨[⟨"T", none, []⟩], [⟨"wide", "T", .unique, fields⟩], []⟩

/-- An index with too many fields is not shown. -/
theorem not_keysMatch_of_long [ExpressionCompiler] {fields : List String}
    (hlong : 2147483648 ≤ fields.length) : ¬ KeysMatch "demo" (indexedBy fields) "T" := by
  intro h
  have hlisted : (⟨"wide", "T", .unique, fields⟩ : Index) ∈
      listedIndexes (indexedBy fields) "T" true := by
    simp [listedIndexes, indexedBy, Catalog.indexesOf, Text.eqIgnoringAsciiCase_self,
      IndexKind.isUnique]
  exact absurd (numberable_of_keysMatch h _ hlisted) (Nat.not_lt.mpr hlong)

/-- The last field of this index gets a negative number. -/
theorem not_keysMatch_overlong :
    let _ := ExpressionCompiler.unlimited
    ¬ KeysMatch "demo" (indexedBy (List.replicate 2147483648 "a")) "T" :=
  let _ := ExpressionCompiler.unlimited
  not_keysMatch_of_long (Nat.le_of_eq List.length_replicate.symm)

end Listing

end DocumentClient
