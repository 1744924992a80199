import DocumentClient.Proofs.RecordFields
import DocumentClient.QueryResult
import Mathlib.Data.List.Forall2
import Mathlib.Data.List.Induction

/-!
# Records as a table

`QueryResult.tabulate` makes a table of records that need not have the same fields. `Tabulates` says
what a table of records is: its columns are the names of the fields of all records, each once and in
the order in which they first come up, and its rows answer for every name what the records answer.
`tabulates_tabulate` says that the table of some records is one.
-/

namespace DocumentClient

namespace QueryResult

variable {records : List Record} {columns : List String} {name : String}

/-! ## Columns -/

/-- The names of all fields of some records, with their repetitions. -/
def allNames (records : List Record) : List String :=
  records.flatMap RecordOf.fieldNames

/-- Names without their repetitions stand in the order of their first occurrences. -/
theorem pairwise_eraseDups (names : List String) :
    names.eraseDups.Pairwise fun a b => names.idxOf a < names.idxOf b := by
  -- From the end, because a name that is added there leaves the places of all others.
  induction names using List.reverseRecOn with
  | nil => exact .nil
  | append_singleton names last ih =>
      have hfront : names.eraseDups.Pairwise
          fun a b => (names ++ [last]).idxOf a < (names ++ [last]).idxOf b := by
        refine ih.imp_of_mem fun ha hb hlt => ?_
        rwa [List.idxOf_append_of_mem (List.mem_eraseDups.mp ha),
          List.idxOf_append_of_mem (List.mem_eraseDups.mp hb)]
      rw [List.eraseDups_append]
      by_cases hlast : last ∈ names
      · have hnone : [last].removeAll names = [] := by simp [List.cons_removeAll, hlast]
        rwa [hnone, List.eraseDups_nil, List.append_nil]
      · have hnew : ([last].removeAll names).eraseDups = [last] := by
          simp [List.cons_removeAll, hlast, List.eraseDups_cons]
        rw [hnew]
        refine List.pairwise_append.mpr ⟨hfront, List.pairwise_singleton _ _, ?_⟩
        intro name hname other hother
        have hmem := List.mem_eraseDups.mp hname
        rw [List.mem_singleton.mp hother, List.idxOf_append_of_mem hmem,
          List.idxOf_append_of_notMem hlast]
        exact Nat.lt_add_right _ (List.idxOf_lt_length_of_mem hmem)

/-- No name heads two columns. -/
theorem nodup_columnNames (records : List Record) : (columnNames records).Nodup := by
  refine (pairwise_eraseDups (allNames records)).imp ?_
  rintro name _ hlt rfl
  exact Nat.lt_irrefl _ hlt

/-- The columns are the fields that some record has. -/
theorem mem_columnNames : name ∈ columnNames records ↔ ∃ r ∈ records, name ∈ r.fieldNames := by
  rw [columnNames, List.mem_eraseDups, List.mem_flatMap]

/-- The columns of a table have the names that were found. -/
theorem names_tabulate (records : List Record) :
    (tabulate records).columns.map (·.name) = columnNames records := by
  refine List.ext_getElem? fun place => ?_
  rw [tabulate, List.getElem?_map, List.getElem?_mapIdx, Option.map_map]
  exact Option.map_id'

/-- A table has one column for each name. -/
theorem length_columns_tabulate (records : List Record) :
    (tabulate records).columns.length = (columnNames records).length :=
  List.length_mapIdx

/-- The columns of a table are numbered from the left. -/
theorem ordinals_tabulate (records : List Record) :
    (tabulate records).columns.map (·.ordinal) =
      List.range (tabulate records).columns.length := by
  refine List.ext_getElem (by simp) fun place _ _ => ?_
  simp [tabulate, anyColumn]

/-! ## Rows -/

/-- A row answers by name with the field of its record, and with null where that is missing. -/
theorem find?_rowOf (columns : List String) (r : Record) (name : String) :
    (rowOf columns r).find? name =
      if name ∈ columns then some (.ofOption (r.get? name)) else none := by
  show (columns.idxOf? name).bind (fun index => (columns.map _)[index]?) = _
  cases hplace : columns.idxOf? name with
  | none => rw [if_neg (List.idxOf?_eq_none_iff.mp hplace)]; rfl
  | some place =>
      obtain ⟨hlt, hname, -⟩ := List.idxOf?_eq_some_iff.mp hplace
      have hmem : name ∈ columns := hname ▸ List.getElem_mem hlt
      simp [hmem, hlt, hname]

/-- The values of a column are those of the records, whether there is such a column or not. -/
theorem columnValues_tabulate (records : List Record) (name : String) :
    (tabulate records).columnValues name = records.map fun r => .ofOption (r.get? name) := by
  show (records.map (rowOf (columnNames records))).map _ = _
  rw [List.map_map]
  refine List.map_congr_left fun r hr => ?_
  show Value.ofOption ((rowOf (columnNames records) r).find? name) = _
  rw [find?_rowOf]
  split
  · rfl
  · next hname =>
      have hnone : r.get? name = none :=
        (r.get?_eq_none_iff name).mpr fun hfield => hname (mem_columnNames.mpr ⟨r, hr, hfield⟩)
      rw [hnone]

/-! ## Tables -/

/-- The row of a table answers what its record answers, as far as the columns of the table go. -/
structure Shows (t : QueryResult) (records : List Record) (r : Record) (row : Row) : Prop where
  length : row.values.length = t.columns.length
  /-- A value can be had by the ordinal of its column or by its name. -/
  ordinal : ∀ column ∈ t.columns, row.get? column.ordinal = row.find? column.name
  held : ∀ name value, r.get? name = some value → row.find? name = some value
  /-- A field that only other records have is null. -/
  absent : ∀ name, name ∉ r.fieldNames → (∃ other ∈ records, name ∈ other.fieldNames) →
    row.find? name = some .null
  missing : ∀ name, (∀ other ∈ records, name ∉ other.fieldNames) → row.find? name = none

/-- A table says what some records say, and nothing else. -/
structure Tabulates (t : QueryResult) (records : List Record) : Prop where
  nodup_columns : (t.columns.map (·.name)).Nodup
  mem_columns : ∀ name, name ∈ t.columns.map (·.name) ↔ ∃ r ∈ records, name ∈ r.fieldNames
  /-- The columns stand in the order in which their names first come up. -/
  columns_order : (t.columns.map (·.name)).Pairwise fun a b =>
    (allNames records).idxOf a < (allNames records).idxOf b
  ordinals : t.columns.map (·.ordinal) = List.range t.columns.length
  /-- There is a row for each record, in order. -/
  rows : List.Forall₂ (t.Shows records) records t.rows
  columnValues : ∀ name, t.columnValues name = records.map fun r => .ofOption (r.get? name)

/-- A row shows its record. -/
theorem shows_rowOf {r : Record} (hr : r ∈ records) :
    (tabulate records).Shows records r (rowOf (columnNames records) r) where
  length := by
    rw [length_columns_tabulate]
    exact List.length_map _
  ordinal column hcolumn := by
    obtain ⟨place, hplace, rfl⟩ := List.mem_mapIdx.mp hcolumn
    show ((columnNames records).map _)[place]? = (rowOf _ r).find? (columnNames records)[place]
    rw [find?_rowOf, if_pos (List.getElem_mem hplace), List.getElem?_map,
      List.getElem?_eq_getElem hplace, Option.map_some]
  held name value hvalue := by
    have hfield : name ∈ r.fieldNames := by
      refine of_not_not fun hname => ?_
      rw [(r.get?_eq_none_iff name).mpr hname] at hvalue
      cases hvalue
    rw [find?_rowOf, if_pos (mem_columnNames.mpr ⟨r, hr, hfield⟩), hvalue]
    rfl
  absent name hname hother := by
    rw [find?_rowOf, if_pos (mem_columnNames.mpr hother), (r.get?_eq_none_iff name).mpr hname]
    rfl
  missing name hnone := by
    rw [find?_rowOf, if_neg]
    intro hname
    obtain ⟨other, hother, hfield⟩ := mem_columnNames.mp hname
    exact hnone other hother hfield

/-- The table of some records loses nothing of them and invents nothing. -/
theorem tabulates_tabulate (records : List Record) : (tabulate records).Tabulates records where
  nodup_columns := by
    rw [names_tabulate]
    exact nodup_columnNames records
  mem_columns name := by
    rw [names_tabulate, mem_columnNames]
  columns_order := by
    rw [names_tabulate]
    exact pairwise_eraseDups (allNames records)
  ordinals := ordinals_tabulate records
  rows := by
    show List.Forall₂ _ records (records.map (rowOf (columnNames records)))
    rw [List.forall₂_map_right_iff]
    exact List.forall₂_same.mpr fun r hr => shows_rowOf hr
  columnValues := columnValues_tabulate records

end QueryResult

end DocumentClient
