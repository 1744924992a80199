import DocumentClient.Proofs.ParameterSets
import DocumentClient.Proofs.UrlParts

/-!
# Written URLs are read back

`build` writes the parts of a configuration one after the other. Nothing is escaped, so the parts
can only be told apart again if they hold no separators (`Separable`) and if the mode has a
location that holds all the other fields (`FitsMode`). The main statement is `read_build`.
-/

namespace DocumentClient.Url

variable {config : Config} {mode : String} {entries : List (String × String)}

/-! ## What a URL can hold -/

/-- No text of a configuration holds a separator that a URL has behind it. The mode is a matter of
`FitsMode`. -/
structure Separable (config : Config) : Prop where
  driver_eq : config.driver = driverName
  host_free : ':' ∉ config.host.toList ∧ '/' ∉ config.host.toList ∧ '?' ∉ config.host.toList
  database_free : ∃ database, config.database = some database ∧ '?' ∉ database.toList
  username_free : ∀ username, config.username = some username → '&' ∉ username.toList
  password_free : ∀ password, config.password = some password → '&' ∉ password.toList
  params_free : ∀ key value, config.param? key = some value → key ≠ modeParam →
    key ∉ ["user", "username", "password"] ∧ '=' ∉ key.toList ∧ '&' ∉ key.toList ∧
      '&' ∉ value.toList

/-- The mode of a configuration can stand in a URL, and unless it is the remote one there is
nothing to write but a database. -/
structure FitsMode (config : Config) (mode : String) : Prop where
  mode_eq : config.param? modeParam = some mode
  mode_ne : mode ≠ ""
  mode_free : ':' ∉ mode.toList
  inProcess : isRemote mode = false →
    config.host = "" ∧ config.port = 0 ∧ config.database ≠ some ""

/-- The port in the URL of a configuration. -/
def writtenPort (config : Config) (mode : String) : UInt16 :=
  if isRemote mode ∧ config.port = 0 then defaultPort else config.port

/-- The port is written as it is, except zero in remote mode, which stands for the default. -/
theorem writtenPort_eq_iff :
    writtenPort config mode = config.port ↔ (isRemote mode = true → config.port ≠ 0) := by
  rw [writtenPort]
  split
  · next h =>
      rw [h.2]
      simp [h.1, defaultPort]
  · next h => simpa using h

/-! ## Locations -/

/-- The location of a configuration with another database. -/
def locationText (config : Config) (mode : String) (database : List Char) : List Char :=
  if isRemote mode then
    config.host.toList ++ ':' :: (Text.digits (writtenPort config mode).toNat ++ '/' :: database)
  else database

/-- A location is the text of host, port and database, or of the database alone. -/
theorem toList_locationOf (mode : String) {database : String}
    (hdatabase : config.database = some database) :
    (locationOf config mode).toList = locationText config mode database.toList := by
  rw [locationOf, locationText, hdatabase, Option.getD_some]
  split
  · next h => simp [writtenPort, h]
  · rfl

/-- A host without colons and its port are read back. -/
theorem readAuthority_written {host : String} (h : ':' ∉ host.toList) (port : UInt16) :
    readAuthority (host.toList ++ ':' :: Text.digits port.toNat) = .ok (host, port) := by
  rw [readAuthority, Text.cutAt_append_cons h]
  simp only
  rw [Text.readUInt16?_digits, String.ofList_toList]

/-- What a location says of a configuration. -/
def located (config : Config) (mode : String) (database : List Char) : Config where
  driver := config.driver
  name := String.ofList (locationText config mode database)
  host := config.host
  port := writtenPort config mode
  database := some (String.ofList database)

/-- A written location is read back. -/
theorem readLocation_locationText (hs : Separable config) (hm : FitsMode config mode)
    (database : List Char) :
    readLocation mode (locationText config mode database) =
      .ok (located config mode database) := by
  rw [readLocation, located, hs.driver_eq]
  cases hmode : isRemote mode with
  | true =>
      have hslash : '/' ∉ config.host.toList ++ ':' ::
          Text.digits (writtenPort config mode).toNat := by
        have hdigits : '/' ∉ Text.digits (writtenPort config mode).toNat :=
          Text.not_mem_digits (by decide)
        simp [hs.host_free.2.1, hdigits]
      have hcut : Text.cutAt '/' (locationText config mode database) =
          some (config.host.toList ++ ':' :: Text.digits (writtenPort config mode).toNat,
            database) := by
        rw [locationText, if_pos hmode, ← Text.cutAt_append_cons hslash database]
        simp
      simp only [if_true, hcut, readAuthority_written hs.host_free.1]
      rfl
  | false =>
      obtain ⟨hhost, hport, -⟩ := hm.inProcess hmode
      simp [locationText, writtenPort, hmode, hhost, hport]
      rfl

/-! ## Entries -/

/-- The text of a pair. -/
def pairText (entry : String × String) : List Char :=
  entry.1.toList ++ '=' :: entry.2.toList

/-- An entry is read back at its first equals sign. -/
theorem pairOf?_pairText {entry : String × String} (h : '=' ∉ entry.1.toList) :
    pairOf? (pairText entry) = some entry := by
  rw [pairOf?, pairText, Text.cutAt_append_cons h, Option.map_some, String.ofList_toList,
    String.ofList_toList]

/-- No part of an entry holds a separator that a URL has behind it. -/
structure EntryFree (entry : String × String) : Prop where
  key_free : '=' ∉ entry.1.toList ∧ '&' ∉ entry.1.toList
  value_free : '&' ∉ entry.2.toList

/-- An entry without the mark holds no separator in its text. -/
theorem EntryFree.pairText {entry : String × String} (h : EntryFree entry) :
    '&' ∉ pairText entry := by
  simp [Url.pairText, h.key_free.2, h.value_free]

/-- The query is the user, the password and every parameter but the mode. -/
theorem mem_queryPairs_iff {entry : String × String} : entry ∈ queryPairs config ↔
    (∃ username, config.username = some username ∧ ("user", username) = entry) ∨
    (∃ password, config.password = some password ∧ ("password", password) = entry) ∨
    config.param? entry.1 = some entry.2 ∧ entry.1 ≠ modeParam := by
  rw [queryPairs, List.mem_append, List.mem_append, List.mem_filter, Config.param?,
    Params.get?_eq_some_iff, bne_iff_ne, or_assoc, Option.mem_toList, Option.mem_toList,
    Option.map_eq_some_iff, Option.map_eq_some_iff]

/-- In a separable configuration, the query holds no marks of its own. -/
theorem Separable.entryFree (hs : Separable config) {entry : String × String}
    (hentry : entry ∈ queryPairs config) : EntryFree entry := by
  rcases mem_queryPairs_iff.mp hentry with
    ⟨username, husername, rfl⟩ | ⟨password, hpassword, rfl⟩ | ⟨hparam, hkey⟩
  · have hkey : '=' ∉ "user".toList ∧ '&' ∉ "user".toList := by decide
    exact ⟨hkey, hs.username_free username husername⟩
  · have hkey : '=' ∉ "password".toList ∧ '&' ∉ "password".toList := by decide
    exact ⟨hkey, hs.password_free password hpassword⟩
  · obtain ⟨-, hequals, hand, hvalue⟩ := hs.params_free entry.1 entry.2 hparam hkey
    exact ⟨⟨hequals, hand⟩, hvalue⟩

/-- Entries that are no credentials are set as parameters. -/
theorem foldl_enter_params (h : ∀ entry ∈ entries, entry.1 ∉ ["user", "username", "password"])
    (config : Config) :
    entries.foldl enter config = { config with params := config.params.setAll entries } := by
  induction entries generalizing config with
  | nil => rfl
  | cons entry entries ih =>
      obtain ⟨hentry, hentries⟩ := List.forall_mem_cons.mp h
      have henter : enter config entry = config.withParam entry.1 entry.2 := by
        simp only [List.mem_cons, List.not_mem_nil, or_false, not_or] at hentry
        rw [enter, if_neg (not_or.mpr ⟨hentry.1, hentry.2.1⟩), if_neg hentry.2.2]
      rw [List.foldl_cons, henter, ih hentries]
      rfl

/-- Entering the entries of a configuration restores its credentials and its parameters. -/
theorem foldl_enter_queryPairs (hs : Separable config)
    (hmode : config.param? modeParam = some mode) {start : Config}
    (husername : start.username = none) (hpassword : start.password = none)
    (hparams : start.params = .empty) :
    (queryPairs config).foldl enter (start.withParam modeParam mode) =
      { start with
        username := config.username, password := config.password, params := config.params } := by
  have hplain : ∀ entry ∈ config.params.entries.filter (·.1 != modeParam),
      entry.1 ∉ ["user", "username", "password"] := by
    rintro ⟨key, value⟩ hentry
    obtain ⟨hmem, hkey⟩ := List.mem_filter.mp hentry
    exact (hs.params_free key value (Params.get?_eq_some_iff.mpr hmem) (bne_iff_ne.mp hkey)).1
  have hrestored := Params.setAll_filter hmode
  rw [queryPairs, List.foldl_append, List.foldl_append, foldl_enter_params hplain]
  cases hu : config.username <;> cases hp : config.password <;>
    simp [enter, Config.withParam, husername, hpassword, hparams, hrestored]

/-! ## Written URLs -/

/-- The parts of a configuration with another database and other entries. -/
def written (config : Config) (mode : String) (database : List Char)
    (entries : List (String × String)) : Parts where
  mode := mode.toList
  location := locationText config mode database
  pairs := entries.map pairText

/-- The query is written behind its mark, or not at all. -/
theorem toList_query (entries : List (String × String)) :
    (if (entries.map fun pair => pair.1 ++ "=" ++ pair.2).isEmpty then ""
      else "?" ++ "&".intercalate (entries.map fun pair => pair.1 ++ "=" ++ pair.2)).toList =
      Parts.queryText (entries.map pairText) := by
  have hpairs : (entries.map fun pair => pair.1 ++ "=" ++ pair.2).map String.toList =
      entries.map pairText := by
    simp [pairText]
  cases entries with
  | nil => rfl
  | cons entry entries =>
      rw [if_neg (by simp), String.toList_append, String.toList_intercalate, hpairs]
      rfl

/-- A URL is written from its mode, its location and its query. -/
theorem toList_build (hmode : config.param? modeParam = some mode) {database : String}
    (hdatabase : config.database = some database) :
    (build config).toList = (written config mode database.toList (queryPairs config)).text := by
  have hmodeOf : modeOf config = mode := by
    rw [modeOf, Config.text?, hmode]
  have hcolon : ":".toList = [':'] := rfl
  rw [build, hmodeOf]
  simp only [String.toList_append, toList_query, toList_locationOf mode hdatabase, written,
    Parts.text, hcolon, List.append_assoc, List.cons_append, List.nil_append]
  rfl

/-- The parts that a separable configuration is written in are separated. -/
theorem Separable.written (hs : Separable config) (hm : FitsMode config mode)
    {database : List Char} (hdatabase : '?' ∉ database)
    (hentries : ∀ entry ∈ entries, EntryFree entry) :
    (written config mode database entries).Separated := by
  constructor
  case mode_ne =>
      exact fun hnil => hm.mode_ne (String.toList_eq_nil_iff.mp hnil)
  case mode_free => exact hm.mode_free
  case location_free =>
      have hdigits : '?' ∉ Text.digits (writtenPort config mode).toNat :=
        Text.not_mem_digits (by decide)
      rw [Url.written, locationText]
      split
      · simp [hs.host_free.2.2, hdigits, hdatabase]
      · exact hdatabase
  case pairs_free =>
      intro pair hpair
      obtain ⟨entry, hentry, rfl⟩ := List.mem_map.mp hpair
      exact (hentries entry hentry).pairText

/-- The entries of the written parts are those of the query. -/
theorem entries_written (hentries : ∀ entry ∈ entries, EntryFree entry)
    (database : List Char) : (written config mode database entries).entries = entries := by
  rw [Parts.entries, written, List.filterMap_map]
  have hpair : ∀ entry ∈ entries, (pairOf? ∘ pairText) entry = some entry :=
    fun entry hentry => pairOf?_pairText (hentries entry hentry).key_free.1
  rw [List.filterMap_congr hpair, List.filterMap_some]

/-- The parts of a configuration are read back, other than an empty location. -/
theorem read_written (hs : Separable config) (hm : FitsMode config mode)
    (hentries : ∀ entry ∈ entries, EntryFree entry) (database : List Char) :
    (written config mode database entries).read =
      if locationText config mode database = [] then .error .noLocation
      else .ok (entries.foldl enter ((located config mode database).withParam modeParam mode)) := by
  rw [Parts.read, entries_written hentries, written]
  simp only [List.isEmpty_iff, String.ofList_toList, readLocation_locationText hs hm]
  split <;> rfl

/-- The written parts are read as the configuration, with its name and port as written. -/
theorem read_queryPairs (hs : Separable config) (hm : FitsMode config mode) {database : String}
    (hdatabase : config.database = some database) :
    (written config mode database.toList (queryPairs config)).read =
      .ok { config with
            name := locationOf config mode, port := writtenPort config mode } := by
  have hname := toList_locationOf mode hdatabase
  have hlocation : locationText config mode database.toList ≠ [] := by
    rw [locationText]
    split
    · simp
    · next hmode =>
        intro hnil
        rw [String.toList_eq_nil_iff] at hnil
        exact (hm.inProcess (by simpa using hmode)).2.2 (hdatabase.trans (congrArg some hnil))
  rw [read_written hs hm fun _ => hs.entryFree, if_neg hlocation,
    foldl_enter_queryPairs hs hm.mode_eq rfl rfl rfl, located, ← hname, String.ofList_toList,
    String.ofList_toList, ← hdatabase]

/-- A URL that does not end in a blank is read back but for a remote port of zero. -/
theorem read_build_of_endsBlank (hs : Separable config) (hm : FitsMode config mode)
    (hend : Text.endsBlank (build config).toList = false) :
    read (build config) = .ok { config with
      name := locationOf config mode, port := writtenPort config mode } := by
  obtain ⟨database, hdatabase, hfree⟩ := hs.database_free
  have htext := toList_build hm.mode_eq hdatabase
  have htrim : Text.trim (build config).toList =
      (written config mode database.toList (queryPairs config)).text := by
    rw [htext, Parts.trim_text, Text.trimEnd_eq_self_iff, ← htext]
    exact hend
  have hseparated := hs.written hm hfree fun _ => hs.entryFree
  rw [read, parse_of_trim_eq hseparated htrim, read_queryPairs hs hm hdatabase]

/-- The URL of a configuration is read back as that configuration if its texts hold no separators,
its mode fits it, a remote one has a port, and the URL does not end in a blank. -/
theorem read_build (hs : Separable config) (hm : FitsMode config mode)
    (hport : isRemote mode = true → config.port ≠ 0)
    (hend : Text.endsBlank (build config).toList = false) :
    read (build config) = .ok { config with name := locationOf config mode } := by
  rw [read_build_of_endsBlank hs hm hend, writtenPort_eq_iff.mpr hport]

/-- A configuration whose password holds the separators that stand in front of the query. -/
def remoteDemo : Config where
  driver := "docql"
  name := ""
  host := "db.example"
  port := 2480
  database := some "demo"
  username := some "ann"
  password := some "a?b=c:d/e"
  params := (Params.empty.set "mode" "remote").set "language" "sql"

/-- The configuration of the remote demo is separable. -/
theorem remoteDemo_separable : Separable remoteDemo := by
  have hentries : remoteDemo.params.entries = [("language", "sql"), ("mode", "remote")] := by
    decide +kernel
  constructor
  case driver_eq => rfl
  case host_free => decide
  case database_free => exact ⟨"demo", rfl, by decide⟩
  case username_free =>
      intro username h
      obtain rfl := Option.some.inj h
      decide
  case password_free =>
      intro password h
      obtain rfl := Option.some.inj h
      decide
  case params_free =>
      intro key value h hkey
      rw [Config.param?, Params.get?_eq_some_iff, hentries] at h
      rcases List.mem_cons.mp h with h | h
      · obtain ⟨rfl, rfl⟩ := Prod.mk.inj h
        decide
      · obtain ⟨rfl, -⟩ := Prod.mk.inj (List.mem_singleton.mp h)
        exact absurd rfl hkey

/-- The configuration of the remote demo fits its mode. -/
theorem remoteDemo_fitsMode : FitsMode remoteDemo "remote" := by
  constructor
  case mode_eq => decide +kernel
  case mode_ne => decide
  case mode_free => decide
  case inProcess => exact fun h => absurd h (by decide +kernel)

/-- The configuration of the remote demo is read back. -/
theorem read_build_remoteDemo :
    (isRemote "remote" = true → remoteDemo.port ≠ 0) ∧
      Text.endsBlank (build remoteDemo).toList = false ∧
      read (build remoteDemo) =
        .ok { remoteDemo with name := locationOf remoteDemo "remote" } := by
  have hport : isRemote "remote" = true → remoteDemo.port ≠ 0 := fun _ => by decide
  have hend : Text.endsBlank (build remoteDemo).toList = false := by decide +kernel
  exact ⟨hport, hend, read_build remoteDemo_separable remoteDemo_fitsMode hport hend⟩

end DocumentClient.Url
