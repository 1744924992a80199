import DocumentClient.Config.Url
import DocumentClient.Proofs.Cutting
import DocumentClient.Proofs.Decimals

/-!
# The parts of a URL

A URL is read in two stages: `readParts` cuts its text at the separators, and `Parts.read` makes a
configuration of the parts (`parse_eq`). The cuts are undone by writing the parts one after the
other, if no part holds the separator that ends it (`readParts_eq_ok_iff`).
-/

namespace DocumentClient.Url

/-! ## Parts and their text -/

/-- What every URL starts with. -/
def scheme : List Char :=
  "docql:".toList

/-- What stands between the separators of a URL. -/
structure Parts where
  mode : List Char
  location : List Char
  pairs : List (List Char)

namespace Parts

/-- What stands behind the location. -/
def queryText : List (List Char) → List Char
  | [] => []
  | pairs => '?' :: ['&'].intercalate pairs

/-- The URL of the parts. -/
def text (parts : Parts) : List Char :=
  scheme ++ (parts.mode ++ ':' :: (parts.location ++ queryText parts.pairs))

/-- There is a mode, and no part holds the separator that ends it. -/
structure Separated (parts : Parts) : Prop where
  mode_ne : parts.mode ≠ []
  mode_free : ':' ∉ parts.mode
  location_free : '?' ∉ parts.location
  pairs_free : ∀ pair ∈ parts.pairs, '&' ∉ pair

end Parts

/-- The key and the value of a pair, if it has an equals sign. -/
def pairOf? (pair : List Char) : Option (String × String) :=
  (Text.cutAt '=' pair).map fun parts => (String.ofList parts.1, String.ofList parts.2)

/-- Enters a key and its value. -/
def enter (config : Config) (entry : String × String) : Config :=
  if entry.1 = "user" ∨ entry.1 = "username" then { config with username := some entry.2 }
  else if entry.1 = "password" then { config with password := some entry.2 }
  else config.withParam entry.1 entry.2

/-- A part of the query is applied as the entry it splits into. -/
theorem applyPair_eq (config : Config) (pair : List Char) :
    applyPair config pair = (pairOf? pair).elim config (enter config) := by
  rw [applyPair, pairOf?]
  cases Text.cutAt '=' pair with
  | none => rfl
  | some parts => rfl

namespace Parts

/-- The pairs that are entered, by key and value. -/
def entries (parts : Parts) : List (String × String) :=
  parts.pairs.filterMap pairOf?

/-- The configuration of the parts. -/
def read (parts : Parts) : Except Fault Config := do
  if parts.location.isEmpty then .error .noLocation
  let mode := String.ofList parts.mode
  let config ← readLocation mode parts.location
  return parts.entries.foldl enter (config.withParam modeParam mode)

/-- The parts of the query are applied as the entries they split into, in their order. -/
theorem foldl_applyPair (parts : Parts) (config : Config) :
    parts.pairs.foldl applyPair config = parts.entries.foldl enter config := by
  have h : applyPair = fun config pair => (pairOf? pair).elim config (enter config) := by
    funext config pair
    exact applyPair_eq config pair
  rw [entries, List.foldl_filterMap, h]
  congr
  funext config pair
  cases pairOf? pair with
  | none => rfl
  | some entry => rfl

/-- A URL is read if its location is, and then its entries are entered over the mode. -/
theorem read_eq_ok_iff {parts : Parts} {config : Config} :
    parts.read = .ok config ↔ parts.location ≠ [] ∧
      ∃ start, readLocation (String.ofList parts.mode) parts.location = .ok start ∧
        config = parts.entries.foldl enter
          (start.withParam modeParam (String.ofList parts.mode)) := by
  rw [read]
  by_cases hlocation : parts.location = []
  · rw [if_pos (by simp [hlocation])]
    constructor
    · intro h
      cases h
    · rintro ⟨hne, -⟩
      exact absurd hlocation hne
  · rw [if_neg (by simp [hlocation])]
    simp only
    cases readLocation (String.ofList parts.mode) parts.location with
    | error fault => simp
    | ok start => simp [hlocation, eq_comm]

/-- Reading one without a location fails; any other is read as its location and its entries. -/
theorem read_eq (parts : Parts) : parts.read = (do
    if parts.location.isEmpty then .error .noLocation
    let mode := String.ofList parts.mode
    let config ← readLocation mode parts.location
    return parts.pairs.foldl applyPair (config.withParam modeParam mode)) := by
  simp only [read, foldl_applyPair]

end Parts

/-! ## Cutting a text into its parts -/

/-- Cuts what stands behind the mode. -/
def readLocated (mode rest : List Char) : Parts :=
  match Text.cutAt '?' rest with
  | some (location, query) => { mode, location, pairs := Text.splitAt '&' query }
  | none => { mode, location := rest, pairs := [] }

/-- Cuts the text of a URL. -/
def readParts (text : List Char) : Except Fault Parts := do
  let some rest := dropScheme? text | .error .noScheme
  let some (mode, rest) := Text.cutAt ':' rest | .error .noMode
  if mode.isEmpty then .error .emptyMode
  return readLocated mode rest

/-- A URL is cut into its parts, and these are read. -/
theorem parse_eq (url : String) :
    parse url = (readParts (Text.trim url.toList)).bind Parts.read := by
  simp only [parse, readParts]
  cases dropScheme? (Text.trim url.toList) with
  | none => rfl
  | some rest =>
      simp only
      cases Text.cutAt ':' rest with
      | none => rfl
      | some cut =>
          obtain ⟨mode, rest⟩ := cut
          simp only
          cases hmode : mode.isEmpty with
          | true => rfl
          | false =>
              show _ = (readLocated mode rest).read
              rw [Parts.read_eq, readLocated]
              cases Text.cutAt '?' rest with
              | none => rfl
              | some cut => rfl

/-- The scheme is dropped where the text begins with it, in lower case. -/
theorem dropScheme?_eq_some_iff {text rest : List Char} :
    dropScheme? text = some rest ↔ text = scheme ++ rest := by
  rw [dropScheme?]
  constructor
  · intro h
    split at h
    · next hprefix =>
        obtain ⟨tail, rfl⟩ := List.isPrefixOf_iff_prefix.mp hprefix
        rw [← Option.some.inj h]
        rfl
    · cases h
  · rintro rfl
    exact if_pos (List.isPrefixOf_iff_prefix.mpr (List.prefix_append scheme rest))

/-- The mode is handed on. -/
theorem readLocated_mode (mode rest : List Char) : (readLocated mode rest).mode = mode := by
  rw [readLocated]
  cases Text.cutAt '?' rest with
  | none => rfl
  | some cut => rfl

/-- Cutting behind the mode undoes writing the location and the pairs. -/
theorem readLocated_eq {parts : Parts} (h : parts.Separated) :
    readLocated parts.mode (parts.location ++ Parts.queryText parts.pairs) = parts := by
  obtain ⟨mode, location, pairs⟩ := parts
  rw [readLocated]
  cases pairs with
  | nil =>
      rw [Parts.queryText, List.append_nil, Text.cutAt_eq_none_iff.mpr h.location_free]
  | cons pair pairs =>
      rw [Parts.queryText, Text.cutAt_append_cons h.location_free]
      · simp only
        rw [Text.splitAt_eq_splitOn,
          List.splitOn_intercalate '&' h.pairs_free (List.cons_ne_nil pair pairs)]
      · exact List.cons_ne_nil _ _

/-- The text behind the mode is the location and the query. -/
theorem readLocated_text (mode rest : List Char) :
    rest = (readLocated mode rest).location ++ Parts.queryText (readLocated mode rest).pairs := by
  rw [readLocated]
  cases hcut : Text.cutAt '?' rest with
  | none => exact (List.append_nil rest).symm
  | some cut =>
      obtain ⟨location, query⟩ := cut
      obtain ⟨hrest, -⟩ := Text.cutAt_eq_some_iff.mp hcut
      simp only
      rw [Parts.queryText, Text.splitAt_eq_splitOn, List.intercalate_splitOn, hrest]
      rw [Text.splitAt_eq_splitOn]
      exact List.splitOn_ne_nil '&' query

/-- The parts that are read are separated. -/
theorem readLocated_separated {mode : List Char} (rest : List Char) (hne : mode ≠ [])
    (hfree : ':' ∉ mode) : (readLocated mode rest).Separated := by
  rw [readLocated]
  cases hcut : Text.cutAt '?' rest with
  | none =>
      constructor
      case mode_ne => exact hne
      case mode_free => exact hfree
      case location_free => exact Text.cutAt_eq_none_iff.mp hcut
      case pairs_free => exact fun pair hpair => absurd hpair List.not_mem_nil
  | some cut =>
      constructor
      case mode_ne => exact hne
      case mode_free => exact hfree
      case location_free => exact (Text.cutAt_eq_some_iff.mp hcut).2
      case pairs_free => exact fun pair hpair => Text.not_mem_of_mem_splitAt hpair

/-- The parts of a URL are those that can be told apart in its text. -/
theorem readParts_eq_ok_iff {text : List Char} {parts : Parts} :
    readParts text = .ok parts ↔ parts.Separated ∧ text = parts.text := by
  constructor
  · intro h
    rw [readParts] at h
    cases hscheme : dropScheme? text with
    | none => rw [hscheme] at h; cases h
    | some tail =>
        rw [hscheme] at h
        simp only at h
        cases hmode : Text.cutAt ':' tail with
        | none => rw [hmode] at h; cases h
        | some cut =>
            obtain ⟨mode, rest⟩ := cut
            rw [hmode] at h
            simp only at h
            cases mode with
            | nil => cases h
            | cons c mode =>
                obtain ⟨rfl, hfree⟩ := Text.cutAt_eq_some_iff.mp hmode
                obtain rfl : readLocated (c :: mode) rest = parts := Except.ok.inj h
                refine ⟨readLocated_separated rest (List.cons_ne_nil c mode) hfree, ?_⟩
                have htext := dropScheme?_eq_some_iff.mp hscheme
                rw [readLocated_text (c :: mode) rest] at htext
                rw [Parts.text, readLocated_mode]
                exact htext
  · rintro ⟨h, rfl⟩
    have hscheme : dropScheme? parts.text =
        some (parts.mode ++ ':' :: (parts.location ++ Parts.queryText parts.pairs)) :=
      dropScheme?_eq_some_iff.mpr rfl
    rw [readParts, hscheme]
    simp only
    rw [Text.cutAt_append_cons h.mode_free]
    simp only
    rw [readLocated_eq h, if_neg (by simp [h.mode_ne])]
    rfl

/-- A URL is parsed by the parts that its trimmed text is written from. -/
theorem parse_of_trim_eq {url : String} {parts : Parts} (h : parts.Separated)
    (htrim : Text.trim url.toList = parts.text) : parse url = parts.read := by
  rw [parse_eq, readParts_eq_ok_iff.mpr ⟨h, htrim⟩]
  rfl

/-- Only blanks at the end of a URL are trimmed. -/
theorem Parts.trim_text (parts : Parts) : Text.trim parts.text = Text.trimEnd parts.text := by
  obtain ⟨rest, hrest⟩ : ∃ rest, parts.text = 'd' :: rest := ⟨_, rfl⟩
  rw [hrest, Text.trim_cons (by decide)]

end DocumentClient.Url
