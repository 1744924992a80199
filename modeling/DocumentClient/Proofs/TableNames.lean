import DocumentClient.Metadata.Listing
import DocumentClient.Proofs.Tabulation

/-!
# The names of tables in listings

Listings are joined by the names of their tables, so a name in one of them should be a name in the
listing of all tables. Columns and super tables are named after the class that was found, and so are
always listed. Keys and indexes repeat the name that was asked for as it was written. `namesAgree`
says that they are listed exactly if this is the name of a class letter for letter, and
`primaryKeys_not_listed` shows some where it is not.
-/

namespace DocumentClient

/-- Every index is on some class, ignoring ASCII case. -/
def Catalog.IndexesHaveClasses (catalog : Catalog) : Prop :=
  ∀ i ∈ catalog.indexes, ∃ c ∈ catalog.classes, Text.eqIgnoringAsciiCase i.className c.name = true

instance (catalog : Catalog) : Decidable catalog.IndexesHaveClasses :=
  inferInstanceAs (Decidable (∀ i ∈ catalog.indexes, ∃ c ∈ catalog.classes, _))

namespace Listing

/-- What a listing holds in its column `TABLE_NAME`. -/
def tableNames [ExpressionCompiler] (database : String) (catalog : Catalog) (listing : Listing) :
    List Value :=
  (QueryResult.tabulate (listing.records database catalog)).columnValues "TABLE_NAME"

/-- Every table that the listing names is named so in the listing of all tables. -/
def NamesListed [ExpressionCompiler] (database : String) (catalog : Catalog) (listing : Listing) :
    Prop :=
  ∀ name ∈ listing.tableNames database catalog,
    name ∈ (tables none none).tableNames database catalog

/-- The name that was asked for, in a listing of keys or indexes. -/
def asked? : Listing → Option String
  | primaryKeys table => some table
  | indexInfo table _ => some table
  | _ => none

variable {database : String} {catalog : Catalog} {listing : Listing} {table : String}
  {name : Value}

/-! ## The name in each row -/

/-- A row of tables has the name of its class as in the catalog. -/
theorem tableRow_name (database : String) (c : ClassDef) :
    (tableRow database c).get? "TABLE_NAME" = some (.string c.name) := by
  rw [tableRow, RecordOf.get?_ofFields]
  rfl

/-- A row of columns has the name of its class as in the catalog. -/
theorem columnRow_name (database : String) (c : ClassDef) (p : Property) :
    (columnRow database c p).get? "TABLE_NAME" = some (.string c.name) := by
  rw [columnRow, RecordOf.get?_ofFields]
  rfl

/-- A row of super tables has the name of its class as in the catalog. -/
theorem superTableRow?_name {c : ClassDef} {r : Record}
    (h : superTableRow? database c = some r) :
    r.get? "TABLE_NAME" = some (.string c.name) := by
  obtain ⟨parent, -, rfl⟩ := Option.map_eq_some_iff.mp h
  rw [RecordOf.get?_ofFields]
  rfl

/-- A row of primary keys has the name that was asked for. -/
theorem primaryKeyRow_name (database table : String) (i : Index) (position : Nat)
    (field : String) :
    (primaryKeyRow database table i position field).get? "TABLE_NAME" = some (.string table) := by
  rw [primaryKeyRow, RecordOf.get?_ofFields]
  rfl

/-- A row of indexes has the name that was asked for. -/
theorem indexRow_name (database table : String) (i : Index) :
    (indexRow database table i).get? "TABLE_NAME" = some (.string table) := by
  rw [indexRow, RecordOf.get?_ofFields]
  rfl

/-! ## Sorted indexes -/

/-- Putting an index at its place neither drops nor adds one. -/
theorem perm_insertIndex (i : Index) (indexes : List Index) :
    (insertIndex i indexes).Perm (i :: indexes) := by
  induction indexes with
  | nil => exact .refl [i]
  | cons other rest ih =>
      rw [insertIndex]
      split
      · exact (ih.cons other).trans (.swap i other rest)
      · exact .refl _

/-- Sorting indexes neither drops nor adds one. -/
theorem perm_sortIndexes (indexes : List Index) : (sortIndexes indexes).Perm indexes := by
  induction indexes with
  | nil => exact .refl []
  | cons i indexes ih => exact (perm_insertIndex i _).trans (ih.cons i)

section Listings

variable [ExpressionCompiler]

/-! ## The names in each listing -/

/-- The names of a listing are those in its rows. -/
theorem mem_tableNames : name ∈ listing.tableNames database catalog ↔
    ∃ r ∈ listing.records database catalog, .ofOption (r.get? "TABLE_NAME") = name := by
  rw [tableNames, QueryResult.columnValues_tabulate, List.mem_map]

/-- The listing of all tables names the classes. -/
theorem tableNames_tables (database : String) (catalog : Catalog) :
    (tables none none).tableNames database catalog =
      catalog.classes.map fun c => .string c.name := by
  have hrows : (tables none none).records database catalog =
      catalog.classes.map (tableRow database) := by
    simp only [records, hasName, hasType, List.filter_true]
  rw [tableNames, QueryResult.columnValues_tabulate, hrows, List.map_map]
  refine List.map_congr_left fun c _ => ?_
  show Value.ofOption ((tableRow database c).get? "TABLE_NAME") = _
  rw [tableRow_name]
  rfl

/-- Every class is named by the unfiltered listing of tables. -/
theorem mem_tableNames_tables (database : String) {c : ClassDef} (hc : c ∈ catalog.classes) :
    .string c.name ∈ (tables none none).tableNames database catalog := by
  rw [tableNames_tables]
  exact List.mem_map_of_mem hc

/-- Listings of columns name only tables that are listed. -/
theorem namesListed_columns (table column : Option String) :
    NamesListed database catalog (columns table column) := by
  intro name hname
  obtain ⟨r, hr, rfl⟩ := mem_tableNames.mp hname
  obtain ⟨c, hc, hrow⟩ := List.mem_flatMap.mp hr
  obtain ⟨p, -, rfl⟩ := List.mem_map.mp hrow
  rw [columnRow_name]
  exact mem_tableNames_tables database (List.mem_filter.mp hc).1

/-- Listings of super tables name only tables that are listed. -/
theorem namesListed_superTables (table : String) :
    NamesListed database catalog (superTables table) := by
  intro name hname
  obtain ⟨r, hr, rfl⟩ := mem_tableNames.mp hname
  obtain ⟨c, hfound, hrow⟩ := Option.bind_eq_some_iff.mp (Option.mem_toList.mp hr)
  rw [superTableRow?_name hrow]
  exact mem_tableNames_tables database (List.mem_of_find?_eq_some hfound)

/-- A listing of keys or indexes names the table that was asked for, and only if it has an index. -/
theorem of_mem_tableNames (hasked : listing.asked? = some table)
    (hname : name ∈ listing.tableNames database catalog) :
    name = .string table ∧ ∃ i, i ∈ catalog.indexesOf table := by
  obtain ⟨r, hr, rfl⟩ := mem_tableNames.mp hname
  cases listing with
  | primaryKeys other =>
      obtain rfl := Option.some.inj hasked
      obtain ⟨i, hi, hrow⟩ := List.mem_flatMap.mp hr
      obtain ⟨position, hposition, rfl⟩ := List.mem_mapIdx.mp hrow
      rw [primaryKeyRow_name]
      exact ⟨rfl, i, (List.mem_filter.mp hi).1⟩
  | indexInfo other uniqueOnly =>
      obtain rfl := Option.some.inj hasked
      obtain ⟨i, hi, rfl⟩ := List.mem_map.mp hr
      have hsorted := (perm_sortIndexes _).mem_iff.mp hi
      rw [indexRow_name]
      exact ⟨rfl, i, (List.mem_filter.mp hsorted).1⟩
  | _ => cases hasked

/-! ## Which names are listed -/

/-- How the names of tables in the listings of a catalog go together. -/
structure NamesAgree (database : String) (catalog : Catalog) : Prop where
  columns : ∀ table column, NamesListed database catalog (columns table column)
  superTables : ∀ table, NamesListed database catalog (superTables table)
  /-- The names of keys and indexes are listed if there are none, or if the name that was asked for
  is that of a class letter for letter. -/
  asked : ∀ (listing : Listing) (table : String), listing.asked? = some table →
    (NamesListed database catalog listing ↔
      listing.tableNames database catalog = [] ∨ ∃ c ∈ catalog.classes, c.name = table)
  /-- In any case they name a class, ignoring ASCII case. -/
  alike : ∀ (listing : Listing) (table : String), listing.asked? = some table →
    ∀ name ∈ listing.tableNames database catalog, name = .string table ∧
      ∃ c ∈ catalog.classes, Text.eqIgnoringAsciiCase table c.name = true

/-- A listing that repeats its argument does exactly if it is empty or the argument names a
class. -/
theorem namesListed_iff_of_asked (hasked : listing.asked? = some table) :
    NamesListed database catalog listing ↔
      listing.tableNames database catalog = [] ∨ ∃ c ∈ catalog.classes, c.name = table := by
  constructor
  · intro hlisted
    -- All names of the listing are the one that was asked for, so the first stands for all.
    cases hnames : listing.tableNames database catalog with
    | nil => exact .inl rfl
    | cons name names =>
        have hname : name ∈ listing.tableNames database catalog := hnames ▸ List.mem_cons_self
        obtain ⟨rfl, -⟩ := of_mem_tableNames hasked hname
        have hlist := hlisted _ hname
        rw [tableNames_tables] at hlist
        obtain ⟨c, hc, hsame⟩ := List.mem_map.mp hlist
        exact .inr ⟨c, hc, Value.string.inj hsame⟩
  · rintro (hnone | ⟨c, hc, rfl⟩) name hname
    · rw [hnone] at hname
      cases hname
    · obtain ⟨rfl, -⟩ := of_mem_tableNames hasked hname
      exact mem_tableNames_tables database hc

/-- If every index is on a class, tables are named alike in all listings, but the names of keys and
indexes may differ from the others in ASCII case. -/
theorem namesAgree (database : String) (h : catalog.IndexesHaveClasses) :
    NamesAgree database catalog where
  columns := namesListed_columns
  superTables := namesListed_superTables
  asked _ _ := namesListed_iff_of_asked
  alike listing table hasked name hname := by
    obtain ⟨hsame, i, hi⟩ := of_mem_tableNames hasked hname
    obtain ⟨hindex, hclass⟩ := List.mem_filter.mp hi
    obtain ⟨c, hc, hother⟩ := h i hindex
    refine ⟨hsame, c, hc, Text.eqIgnoringAsciiCase_iff.mpr ?_⟩
    rw [← Text.eqIgnoringAsciiCase_iff.mp hclass, Text.eqIgnoringAsciiCase_iff.mp hother]

end Listings

/-- A class with a unique index. -/
def keyedCatalog : Catalog :=
  { classes := [⟨"Person", none, []⟩]
    indexes := [⟨"Person.name", "Person", .unique, ["name"]⟩]
    functions := [] }

/-- In the spelling of the catalog, the listings agree. -/
theorem namesAgree_keyedCatalog :
    let _ := ExpressionCompiler.unlimited
    keyedCatalog.IndexesHaveClasses ∧ NamesListed "demo" keyedCatalog (primaryKeys "Person") ∧
      (primaryKeys "Person").tableNames "demo" keyedCatalog = [.string "Person"] := by
  intro _
  have hclasses : keyedCatalog.IndexesHaveClasses := by decide
  have hagree := namesAgree "demo" hclasses
  refine ⟨hclasses, (hagree.asked _ _ rfl).mpr (.inr ⟨_, List.mem_singleton_self _, rfl⟩), ?_⟩
  rfl

/-- A class that is asked for in small letters has its keys and indexes under a name that is not
listed. -/
theorem primaryKeys_not_listed :
    let _ := ExpressionCompiler.unlimited
    keyedCatalog.IndexesHaveClasses ∧
      (tables none none).tableNames "demo" keyedCatalog = [.string "Person"] ∧
      (primaryKeys "person").tableNames "demo" keyedCatalog = [.string "person"] ∧
      ¬ NamesListed "demo" keyedCatalog (primaryKeys "person") ∧
      ¬ NamesListed "demo" keyedCatalog (indexInfo "person" false) := by
  intro _
  have hlisted : (tables none none).tableNames "demo" keyedCatalog = [.string "Person"] := rfl
  have hkeys : (primaryKeys "person").tableNames "demo" keyedCatalog = [.string "person"] := rfl
  have hindexes : (indexInfo "person" false).tableNames "demo" keyedCatalog =
      [.string "person"] := rfl
  have hother : Value.string "person" ∉ [Value.string "Person"] := by simp
  refine ⟨by decide, hlisted, hkeys, fun hnames => ?_, fun hnames => ?_⟩
  · exact hother (hlisted ▸ hnames _ (hkeys ▸ List.mem_singleton_self _))
  · exact hother (hlisted ▸ hnames _ (hindexes ▸ List.mem_singleton_self _))

end Listing

end DocumentClient
