import DocumentClient.Toml.Basic
/-!
# Tables of a TOML document

A document is a list of statements: headers, which name the table that the following pairs
belong to, and pairs. `tablesOf?` enters the statements one after another and refuses a document
that defines a key or a table twice. What may be extended depends on how a table came about.
-/

namespace DocumentClient.Toml

/-- A statement of a document. -/
inductive Statement where
  /-- The header of a table. -/
  | table (path : List String)
  /-- The header of one more table in an array of tables. -/
  | element (path : List String)
  /-- A key, with the keys before its last point, and its value. -/
  | pair (path : List String) (key : String) (value : Toml)

/-- How a table came about. -/
inductive Origin where
  /-- By its own header. -/
  | header
  /-- Because the header of a table inside it names it. -/
  | implied
  /-- Because a key with points names it. -/
  | dotted
deriving DecidableEq

/-- What a key stands for while a document is read. -/
inductive Node where
  | value (value : Toml)
  | table (origin : Origin) (entries : List (String × Node))
  | elements (elements : List (List (String × Node)))

/-- The keys of a table and what they stand for. -/
abbrev Entries := List (String × Node)

instance : Inhabited Node := ⟨.value default⟩

/-- The entries with one of them set. -/
def setEntry (key : String) (node : Node) : Entries → Entries
  | [] => [(key, node)]
  | (other, old) :: rest =>
    if other = key then (key, node) :: rest else (other, old) :: setEntry key node rest

/-- Changes the entries of the table at a path. Tables that are missing are made with the given
origin, and of an array of tables the last one is meant. A key with points does not reach into a
table that has its own header. -/
def changeAt (made : Origin) (change : Origin → Entries → Option Entries) :
    (path : List String) → Origin → Entries → Option Entries
  | [], origin, entries => change origin entries
  | key :: path, _, entries =>
    match entries.lookup key with
    | none => do
      let inner ← changeAt made change path made []
      return setEntry key (.table made inner) entries
    | some (.value _) => none
    | some (.table origin inner) =>
      if made = .dotted ∧ origin = .header then none
      else do
        let inner ← changeAt made change path origin inner
        return setEntry key (.table origin inner) entries
    | some (.elements elements) => do
      let last ← elements.getLast?
      let last ← changeAt made change path .header last
      return setEntry key (.elements (elements.dropLast ++ [last])) entries

/-- Enters the header of a table. A table that so far was only implied gets its header now. -/
def enterTable (key : String) (entries : Entries) : Option Entries :=
  match entries.lookup key with
  | none => some (setEntry key (.table .header []) entries)
  | some (.table .implied inner) => some (setEntry key (.table .header inner) entries)
  | some _ => none

/-- Enters one more table of an array of tables. -/
def enterElement (key : String) (entries : Entries) : Option Entries :=
  match entries.lookup key with
  | none => some (setEntry key (.elements [[]]) entries)
  | some (.elements elements) => some (setEntry key (.elements (elements ++ [[]])) entries)
  | some _ => none

/-- Enters a key of a table. With points before it, the table must be made by such keys alone. -/
def enterKey (afterPoint : Bool) (key : String) (value : Toml) (origin : Origin)
    (entries : Entries) : Option Entries :=
  if afterPoint && origin != .dotted then none
  else
    match entries.lookup key with
    | none => some (setEntry key (.value value) entries)
    | some _ => none

/-- Enters a pair whose path starts at these entries. -/
def enterPair (path : List String) (key : String) (value : Toml) (origin : Origin)
    (entries : Entries) : Option Entries :=
  changeAt .dotted (enterKey (!path.isEmpty) key value) path origin entries

/-- The entries of the document so far and the path of the table that pairs belong to. -/
structure Progress where
  entries : Entries
  current : List String

/-- Enters one statement. -/
def Progress.enter (p : Progress) : Statement → Option Progress
  | .table path => do
    let key ← path.getLast?
    let entries ← changeAt .implied (fun _ => enterTable key) path.dropLast .header p.entries
    return ⟨entries, path⟩
  | .element path => do
    let key ← path.getLast?
    let entries ← changeAt .implied (fun _ => enterElement key) path.dropLast .header p.entries
    return ⟨entries, path⟩
  | .pair path key value => do
    let entries ← changeAt .implied (enterPair path key value) p.current .header p.entries
    return { p with entries }

mutual

/-- The value that a key stands for. -/
def Node.toToml : Node → Toml
  | .value value => value
  | .table _ entries => .table (entriesToToml entries)
  | .elements elements => .array (elementsToToml elements)

def entriesToToml : List (String × Node) → List (String × Toml)
  | [] => []
  | (key, node) :: rest => (key, node.toToml) :: entriesToToml rest

def elementsToToml : List (List (String × Node)) → List Toml
  | [] => []
  | entries :: rest => .table (entriesToToml entries) :: elementsToToml rest

end

/-- The table that the statements of a document make. -/
def tablesOf? (statements : List Statement) : Option (List (String × Toml)) :=
  (statements.foldlM Progress.enter ⟨[], []⟩).map fun p => entriesToToml p.entries

/-- The table that the pairs between braces make. -/
def inlineTable? (pairs : List (List String × String × Toml)) : Option Toml :=
  (pairs.foldlM (fun entries pair => enterPair pair.1 pair.2.1 pair.2.2 .header entries) []).map
    fun entries => .table (entriesToToml entries)

end DocumentClient.Toml
