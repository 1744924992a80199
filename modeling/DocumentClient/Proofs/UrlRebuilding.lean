import DocumentClient.Proofs.UrlWriting

/-!
# URLs that are rebuilt

What is read from a URL can be told apart in the URL that is built from it (`separable_of_read`),
so reading that one gives the same configuration, other than for a remote port of zero and for
blanks that have come to stand at the end. The main statement is `survives_iff_of_read`.
-/

namespace DocumentClient.Url

variable {config : Config} {mode : String} {entries : List (String × String)}

/-- The URL of a configuration is read as that configuration, whatever its name. -/
def Survives (config : Config) : Prop :=
  ∃ name, read (build config) = .ok { config with name }

instance (config : Config) : Decidable (Survives config) :=
  match h : read (build config) with
  | .error fault => isFalse (by rintro ⟨name, hread⟩; rw [h] at hread; cases hread)
  | .ok again =>
    if heq : again = { config with name := again.name } then
      isTrue ⟨again.name, h.trans (congrArg _ heq)⟩
    else isFalse (by
      rintro ⟨name, hread⟩
      obtain rfl := Except.ok.inj (h.symm.trans hread)
      exact heq rfl)

/-! ## What is read from a URL -/

/-- The last value of a parameter is the one that counts. -/
theorem param?_withParam (config : Config) (key value other : String) :
    (config.withParam key value).param? other =
      if other = key then some value else config.param? other :=
  Params.get?_set config.params key value other

/-- A parameter without the marks keeps a configuration separable. -/
theorem Separable.withParam (hs : Separable config) {key value : String}
    (h : key ≠ modeParam → key ∉ ["user", "username", "password"] ∧ '=' ∉ key.toList ∧
      '&' ∉ key.toList ∧ '&' ∉ value.toList) :
    Separable (config.withParam key value) := by
  refine { hs with params_free := ?_ }
  intro other found hfound hother
  rw [param?_withParam] at hfound
  split at hfound
  · next heq =>
      obtain rfl := Option.some.inj hfound
      rw [heq] at hother ⊢
      exact h hother
  · exact hs.params_free other found hfound hother

/-- An entry without the marks keeps a configuration separable. -/
theorem Separable.entered (hs : Separable config) {entry : String × String}
    (hentry : EntryFree entry) : Separable (enter config entry) := by
  rw [enter]
  split
  · refine { hs with username_free := ?_ }
    intro username husername
    rw [← Option.some.inj husername]
    exact hentry.value_free
  · next huser =>
      split
      · refine { hs with password_free := ?_ }
        intro password hpassword
        rw [← Option.some.inj hpassword]
        exact hentry.value_free
      · next hpassword =>
          apply hs.withParam
          intro _
          refine ⟨?_, hentry.key_free.1, hentry.key_free.2, hentry.value_free⟩
          simpa [not_or, and_assoc] using And.intro huser hpassword

/-- Entries without the marks keep a configuration separable. -/
theorem Separable.all_entered (hs : Separable config)
    (hentries : ∀ entry ∈ entries, EntryFree entry) : Separable (entries.foldl enter config) := by
  induction entries generalizing config with
  | nil => exact hs
  | cons entry entries ih =>
      obtain ⟨hentry, hrest⟩ := List.forall_mem_cons.mp hentries
      exact ih (hs.entered hentry) hrest

/-- Entries for other keys than the mode leave what the mode has to fit. -/
theorem FitsMode.entered (hm : FitsMode config mode) {entry : String × String}
    (hkey : entry.1 ≠ modeParam) : FitsMode (enter config entry) mode := by
  rw [enter]
  split
  · exact { hm with }
  · split
    · exact { hm with }
    · refine { hm with mode_eq := ?_ }
      rw [param?_withParam, if_neg hkey.symm]
      exact hm.mode_eq

/-- Entries other than the mode leave the configuration fit for it. -/
theorem FitsMode.all_entered (hm : FitsMode config mode)
    (hkeys : ∀ entry ∈ entries, entry.1 ≠ modeParam) :
    FitsMode (entries.foldl enter config) mode := by
  induction entries generalizing config with
  | nil => exact hm
  | cons entry entries ih =>
      obtain ⟨hkey, hrest⟩ := List.forall_mem_cons.mp hkeys
      exact ih (hm.entered hkey) hrest

/-- The entries of separated parts hold none of the marks they were split at. -/
theorem Parts.Separated.entryFree {parts : Parts} (h : parts.Separated)
    {entry : String × String} (hentry : entry ∈ parts.entries) : EntryFree entry := by
  obtain ⟨pair, hpair, hof⟩ := List.mem_filterMap.mp hentry
  obtain ⟨⟨key, value⟩, hcut, rfl⟩ := Option.map_eq_some_iff.mp hof
  obtain ⟨rfl, hequals⟩ := Text.cutAt_eq_some_iff.mp hcut
  have hfree := h.pairs_free _ hpair
  simp only [List.mem_append, List.mem_cons, not_or] at hfree
  constructor
  case key_free => simpa using ⟨hequals, hfree.1⟩
  case value_free => simpa using hfree.2.2

/-- A host holds no colon, and no character its authority did not. -/
theorem readAuthority_free {authority : List Char} {host : String} {port : UInt16}
    (h : readAuthority authority = .ok (host, port)) :
    ':' ∉ host.toList ∧ ∀ c, c ∉ authority → c ∉ host.toList := by
  rw [readAuthority] at h
  cases hcut : Text.cutAt ':' authority with
  | none =>
      rw [hcut] at h
      obtain ⟨rfl, -⟩ := Prod.mk.inj (Except.ok.inj h)
      rw [String.toList_ofList]
      exact ⟨Text.cutAt_eq_none_iff.mp hcut, fun c hc => hc⟩
  | some cut =>
      obtain ⟨front, back⟩ := cut
      rw [hcut] at h
      obtain ⟨rfl, hcolon⟩ := Text.cutAt_eq_some_iff.mp hcut
      simp only at h
      cases hport : Text.readUInt16? back with
      | none => rw [hport] at h; cases h
      | some number =>
          rw [hport] at h
          obtain ⟨rfl, -⟩ := Prod.mk.inj (Except.ok.inj h)
          rw [String.toList_ofList]
          exact ⟨hcolon, fun c hc hmem => hc (List.mem_append_left _ hmem)⟩

/-- What a location without a question mark is read as. -/
structure Located (mode : String) (location : List Char) (start : Config) : Prop where
  driver_eq : start.driver = driverName
  host_free : ':' ∉ start.host.toList ∧ '/' ∉ start.host.toList ∧ '?' ∉ start.host.toList
  database_free : ∃ database, start.database = some database ∧ '?' ∉ database.toList
  plain : start.username = none ∧ start.password = none ∧ start.params = .empty
  inProcess : isRemote mode = false →
    start.host = "" ∧ start.port = 0 ∧ start.database = some (String.ofList location)

/-- A location that is read is a place of its mode. -/
theorem located_of_readLocation {location : List Char} {start : Config} (hfree : '?' ∉ location)
    (h : readLocation mode location = .ok start) : Located mode location start := by
  rw [readLocation] at h
  cases hmode : isRemote mode with
  | true =>
      rw [if_pos hmode] at h
      cases hcut : Text.cutAt '/' location with
      | none => rw [hcut] at h; cases h
      | some cut =>
          obtain ⟨authority, database⟩ := cut
          rw [hcut] at h
          obtain ⟨rfl, hslash⟩ := Text.cutAt_eq_some_iff.mp hcut
          simp only at h
          cases hauthority : readAuthority authority with
          | error fault => rw [hauthority] at h; cases h
          | ok address =>
              obtain ⟨host, port⟩ := address
              rw [hauthority] at h
              obtain rfl := Except.ok.inj h
              obtain ⟨hcolon, hhost⟩ := readAuthority_free hauthority
              simp only [List.mem_append, List.mem_cons, not_or] at hfree
              constructor
              case driver_eq => rfl
              case host_free => exact ⟨hcolon, hhost '/' hslash, hhost '?' hfree.1⟩
              case database_free => exact ⟨_, rfl, by simpa using hfree.2.2⟩
              case plain => exact ⟨rfl, rfl, rfl⟩
              case inProcess => exact fun hfalse => absurd (hmode.symm.trans hfalse) (by decide)
  | false =>
      rw [if_neg (by simp [hmode])] at h
      obtain rfl := Except.ok.inj h
      constructor
      case driver_eq => rfl
      case host_free => simp
      case database_free => exact ⟨_, rfl, by simpa using hfree⟩
      case plain => exact ⟨rfl, rfl, rfl⟩
      case inProcess => exact fun _ => ⟨rfl, rfl, rfl⟩

/-- What is read from a location is separable. -/
theorem Located.separable {location : List Char} {start : Config}
    (h : Located mode location start) : Separable (start.withParam modeParam mode) := by
  obtain ⟨husername, hpassword, hparams⟩ := h.plain
  have hs : Separable start := by
    constructor
    case driver_eq => exact h.driver_eq
    case host_free => exact h.host_free
    case database_free => exact h.database_free
    case username_free => simp [husername]
    case password_free => simp [hpassword]
    case params_free => simp [Config.param?, hparams]
  exact hs.withParam fun hne => absurd rfl hne

/-- What is read from a location fits the mode it is read in. -/
theorem Located.fitsMode {location : List Char} {start : Config}
    (h : Located mode location start) (hlocation : location ≠ []) (hne : mode ≠ "")
    (hfree : ':' ∉ mode.toList) : FitsMode (start.withParam modeParam mode) mode := by
  constructor
  case mode_eq => rw [param?_withParam, if_pos rfl]
  case mode_ne => exact hne
  case mode_free => exact hfree
  case inProcess =>
      intro hmode
      obtain ⟨hhost, hport, hdatabase⟩ := h.inProcess hmode
      refine ⟨hhost, hport, ?_⟩
      show start.database ≠ some ""
      rw [hdatabase]
      simpa using hlocation

/-- The keys of the pairs behind the question mark of a URL. -/
def queryKeys (url : String) : List String :=
  match readParts (Text.trim url.toList) with
  | .ok parts => parts.entries.map (·.1)
  | .error _ => []

/-- What reads also parses: reading adds the check of the scheme. -/
theorem parse_of_read {url : String} (h : read url = .ok config) : parse url = .ok config := by
  rw [read] at h
  split at h
  · next hparse =>
      obtain rfl := Except.ok.inj h
      exact hparse
  · cases h

/-- What the parts of an accepted URL give: a location without separators, and entries. -/
theorem located_of_read {url : String} (h : read url = .ok config) :
    ∃ (parts : Parts) (start : Config), parts.Separated ∧
      queryKeys url = parts.entries.map (·.1) ∧ parts.location ≠ [] ∧
      Located (String.ofList parts.mode) parts.location start ∧
      config = parts.entries.foldl enter
        (start.withParam modeParam (String.ofList parts.mode)) := by
  have hparse := parse_of_read h
  rw [parse_eq] at hparse
  cases hparts : readParts (Text.trim url.toList) with
  | error fault => rw [hparts] at hparse; cases hparse
  | ok parts =>
      rw [hparts] at hparse
      obtain ⟨hseparated, -⟩ := readParts_eq_ok_iff.mp hparts
      obtain ⟨hlocation, start, hstart, hconfig⟩ := Parts.read_eq_ok_iff.mp hparse
      have hlocated := located_of_readLocation hseparated.location_free hstart
      refine ⟨parts, start, hseparated, ?_, hlocation, hlocated, hconfig⟩
      rw [queryKeys, hparts]

/-- The texts of an accepted URL can be told apart in a URL again. -/
theorem separable_of_read {url : String} (h : read url = .ok config) : Separable config := by
  obtain ⟨parts, start, hseparated, -, -, hlocated, rfl⟩ := located_of_read h
  exact hlocated.separable.all_entered fun _ => hseparated.entryFree

/-- The mode that a URL starts with fits what is read, unless a pair puts another in its place. -/
theorem fitsMode_of_read {url : String} (h : read url = .ok config)
    (hkeys : modeParam ∉ queryKeys url) : ∃ mode, FitsMode config mode := by
  obtain ⟨parts, start, hseparated, hquery, hlocation, hlocated, rfl⟩ := located_of_read h
  have hne : String.ofList parts.mode ≠ "" := by simpa using hseparated.mode_ne
  have hfree : ':' ∉ (String.ofList parts.mode).toList := by
    rw [String.toList_ofList]
    exact hseparated.mode_free
  refine ⟨_, (hlocated.fitsMode hlocation hne hfree).all_entered ?_⟩
  intro entry hentry heq
  rw [hquery] at hkeys
  exact hkeys (heq ▸ List.mem_map_of_mem hentry)

/-! ## Blanks at the end of a built URL -/

/-- Without entries the database stands at the end of a URL. -/
theorem text_written_nil (config : Config) (mode : String) :
    ∃ front c, Text.isBlank c = false ∧
      ∀ database, (written config mode database []).text = front ++ c :: database := by
  cases hmode : isRemote mode with
  | true =>
      refine ⟨scheme ++ (mode.toList ++ ':' :: (config.host.toList ++ ':' ::
        Text.digits (writtenPort config mode).toNat)), '/', by decide, fun database => ?_⟩
      simp [written, Parts.text, Parts.queryText, locationText, hmode]
  | false =>
      refine ⟨scheme ++ mode.toList, ':', by decide, fun database => ?_⟩
      simp [written, Parts.text, Parts.queryText, locationText, hmode]

/-- The value of the last entry stands at the end of a URL. -/
theorem text_written_concat (config : Config) (mode : String) (database : List Char)
    (entries : List (String × String)) (key : String) :
    ∃ front, ∀ value, (written config mode database (entries ++ [(key, value)])).text =
      front ++ '=' :: value.toList := by
  obtain ⟨joined, hjoined⟩ := Text.intercalate_concat ['&'] (entries.map pairText)
  refine ⟨scheme ++ (mode.toList ++ ':' :: (locationText config mode database ++
    '?' :: (joined ++ key.toList))), fun value => ?_⟩
  have hquery : Parts.queryText ((entries ++ [(key, value)]).map pairText) =
      '?' :: (joined ++ pairText (key, value)) := by
    rw [List.map_append, List.map_singleton, Parts.queryText, hjoined]
    simp
  simp only [Parts.text, written, hquery]
  simp [pairText]

/-- Entering another value for the same key gives another configuration. -/
theorem enter_value_eq {name key first second : String} {port : UInt16} {again : Config}
    (h : enter again (key, first) = { enter again (key, second) with name, port }) :
    first = second := by
  simp only [enter] at h
  split at h
  · exact Option.some.inj (congrArg Config.username h)
  · split at h
    · exact Option.some.inj (congrArg Config.password h)
    · have hvalue := congrArg (Config.param? · key) h
      simpa [Config.param?, Config.withParam, Params.get?_set] using hvalue

/-- What a surviving URL is read as, if it reads like a written one once it is trimmed. -/
theorem Survives.entered (hsurvives : Survives config) (hs : Separable config)
    (hm : FitsMode config mode) {database : List Char} (hfree : '?' ∉ database)
    (hentries : ∀ entry ∈ entries, EntryFree entry)
    (htrim : Text.trim (build config).toList = (written config mode database entries).text) :
    locationText config mode database ≠ [] ∧ ∃ name,
      entries.foldl enter ((located config mode database).withParam modeParam mode) =
        { config with name } := by
  obtain ⟨name, hread⟩ := hsurvives
  have hparse := parse_of_read hread
  rw [parse_of_trim_eq (hs.written hm hfree hentries) htrim, read_written hs hm hentries] at hparse
  split at hparse
  · cases hparse
  · next hlocation => exact ⟨hlocation, name, Except.ok.inj hparse⟩

/-- Trimming a value leaves its entry free of the marks. -/
theorem EntryFree.trimmed {key value kept : String} (h : EntryFree (key, value))
    (hkept : kept.toList = Text.trimEnd value.toList) : EntryFree (key, kept) := by
  refine ⟨h.key_free, ?_⟩
  rw [hkept]
  exact Text.not_mem_trimEnd h.value_free

/-- A database that is read without the blanks at its end is another one. -/
theorem not_survives_of_database_blank (hs : Separable config) (hm : FitsMode config mode)
    (hpairs : queryPairs config = [])
    (hend : Text.endsBlank (build config).toList = true) : ¬ Survives config := by
  intro hsurvives
  obtain ⟨database, hdatabase, hfree⟩ := hs.database_free
  obtain ⟨front, c, hc, hfront⟩ := text_written_nil config mode
  have htext := toList_build hm.mode_eq hdatabase
  rw [hpairs] at htext
  rw [htext, hfront, Text.endsBlank_append_cons front hc] at hend
  have htrim : Text.trim (build config).toList =
      (written config mode (Text.trimEnd database.toList) []).text := by
    rw [htext, Parts.trim_text, hfront, hfront, Text.trimEnd_append_cons front hc]
  obtain ⟨-, name, hentered⟩ :=
    hsurvives.entered hs hm (Text.not_mem_trimEnd hfree) (by simp) htrim
  have hsame : some (String.ofList (Text.trimEnd database.toList)) = config.database :=
    congrArg Config.database hentered
  rw [hdatabase, Option.some_inj, ← String.toList_inj, String.toList_ofList] at hsame
  exact Text.trimEnd_ne_self hend hsame

/-- A value that is read without the blanks at its end is another one. -/
theorem not_survives_of_value_blank (hs : Separable config) (hm : FitsMode config mode)
    {key value : String} (hpairs : queryPairs config = entries ++ [(key, value)])
    (hend : Text.endsBlank (build config).toList = true) : ¬ Survives config := by
  intro hsurvives
  obtain ⟨database, hdatabase, hfree⟩ := hs.database_free
  obtain ⟨front, hfront⟩ := text_written_concat config mode database.toList entries key
  have hequals : Text.isBlank '=' = false := by decide
  have htext := toList_build hm.mode_eq hdatabase
  rw [hpairs] at htext
  rw [htext, hfront, Text.endsBlank_append_cons front hequals] at hend
  obtain ⟨kept, htrimmed⟩ : ∃ kept : String, kept.toList = Text.trimEnd value.toList :=
    ⟨_, String.toList_ofList⟩
  have htrim : Text.trim (build config).toList =
      (written config mode database.toList (entries ++ [(key, kept)])).text := by
    rw [htext, Parts.trim_text, hfront, hfront, Text.trimEnd_append_cons front hequals, htrimmed]
  have hentries : ∀ entry ∈ entries ++ [(key, value)], EntryFree entry :=
    hpairs ▸ fun _ => hs.entryFree
  obtain ⟨hrest, hlast⟩ := List.forall_mem_append.mp hentries
  have hvalue := (hlast (key, value) List.mem_cons_self).trimmed htrimmed
  have hkept : ∀ entry ∈ entries ++ [(key, kept)], EntryFree entry :=
    List.forall_mem_append.mpr ⟨hrest, List.forall_mem_singleton.mpr hvalue⟩
  obtain ⟨hlocation, name, hentered⟩ := hsurvives.entered hs hm hfree hkept htrim
  -- With the whole value, the entries give the configuration but for its name and its port.
  have hwhole := read_queryPairs hs hm hdatabase
  rw [hpairs, read_written hs hm hentries, if_neg hlocation, Except.ok.injEq] at hwhole
  rw [List.foldl_concat] at hentered hwhole
  have hentry := hentered.trans (congrArg ({ · with name, port := config.port }) hwhole.symm)
  have hsame := enter_value_eq hentry
  rw [← String.toList_inj, htrimmed] at hsame
  exact Text.trimEnd_ne_self hend hsame

/-- The URL of a configuration that can be told apart in it survives exactly if a remote engine has
a port and no blank stands at the end. -/
theorem survives_iff (hs : Separable config) (hm : FitsMode config mode) : Survives config ↔
    (isRemote mode = true → config.port ≠ 0) ∧ Text.endsBlank (build config).toList = false := by
  cases hend : Text.endsBlank (build config).toList with
  | true =>
      have hnot : ¬ Survives config := by
        rcases List.eq_nil_or_concat (queryPairs config) with hpairs | ⟨entries, last, hpairs⟩
        · exact not_survives_of_database_blank hs hm hpairs hend
        · rw [List.concat_eq_append] at hpairs
          exact not_survives_of_value_blank hs hm hpairs hend
      simp [hnot]
  | false =>
      have hread := read_build_of_endsBlank hs hm hend
      rw [← writtenPort_eq_iff, and_iff_left rfl]
      constructor
      · rintro ⟨name, hsame⟩
        exact congrArg Config.port (Except.ok.inj (hread.symm.trans hsame))
      · intro hport
        rw [hport] at hread
        exact ⟨_, hread⟩

/-- An accepted URL whose mode is the one at its start, or another that fits, survives exactly if
a remote engine has a port and no blank stands at the end of the URL that is built. -/
theorem survives_iff_of_read {url : String} (h : read url = .ok config) :
    (modeParam ∉ queryKeys url → ∃ mode, FitsMode config mode) ∧
      ∀ mode, FitsMode config mode → (Survives config ↔
        (isRemote mode = true → config.port ≠ 0) ∧
          Text.endsBlank (build config).toList = false) :=
  ⟨fitsMode_of_read h, fun _ hm => survives_iff (separable_of_read h) hm⟩

/-- What is read from `docql:Remote:h/d?x=1&user=ann&x=2` with blanks around it. -/
def rebuiltDemo : Config where
  driver := "docql"
  name := "h/d"
  host := "h"
  port := 2424
  database := some "d"
  username := some "ann"
  params := (Params.empty.set "mode" "Remote").set "x" "2"

/-- A URL with blanks around it, a parameter given twice and a user comes back. -/
theorem survives_rebuiltDemo :
    read " docql:Remote:h/d?x=1&user=ann&x=2\n" = .ok rebuiltDemo ∧ Survives rebuiltDemo := by
  have hread : read " docql:Remote:h/d?x=1&user=ann&x=2\n" = .ok rebuiltDemo := by decide +kernel
  have hkeys : modeParam ∉ queryKeys " docql:Remote:h/d?x=1&user=ann&x=2\n" := by decide +kernel
  obtain ⟨hfits, hiff⟩ := survives_iff_of_read hread
  obtain ⟨mode, hm⟩ := hfits hkeys
  have hend : Text.endsBlank (build rebuiltDemo).toList = false := by decide +kernel
  exact ⟨hread, (hiff mode hm).mpr ⟨fun _ => by decide, hend⟩⟩

/-- A remote port of zero is the default one when the URL is built, blanks that have come to stand
at the end are trimmed, and an empty mode from the query cannot be read again. -/
theorem not_survives_of_read :
    (∃ config, read "docql:remote:h:0/d" = .ok config ∧ ¬ Survives config) ∧
      (∃ config, read "docql:memory:d?b=x &a=y" = .ok config ∧ ¬ Survives config) ∧
      ∃ config, read "docql:memory:d?mode=" = .ok config ∧ ¬ Survives config := by
  refine ⟨?port, ?blank, ?mode⟩
  case port =>
      exact ⟨{ driver := driverName, name := "h:0/d", host := "h", port := 0, database := some "d"
               params := Params.empty.set modeParam "remote" },
        by decide +kernel, by decide +kernel⟩
  case blank =>
      exact ⟨{ driver := driverName, name := "d", database := some "d"
               params := ((Params.empty.set modeParam "memory").set "b" "x ").set "a" "y" },
        by decide +kernel, by decide +kernel⟩
  case mode =>
      exact ⟨{ driver := driverName, name := "d", database := some "d"
               params := Params.empty.set modeParam "" },
        by decide +kernel, by decide +kernel⟩

end DocumentClient.Url
