import DocumentClient.Proofs.ScriptLines
import Mathlib.Data.List.DropRight

/-!
# The words of a schema change

A command changes the schema by its first two words. Two readers look at them: the classifier, at
the command as it was given, and the engine, at the line that a script holds for the command,
without the semicolons at its end. `Memory.changesSchema_of_accept` says that the engine reads no
schema change in a line whose command the classifier accepts. It rests on two facts about reading
words: words at the start of a text are found in every longer text (`dropWord?_append`), and
writing a text on one line moves no word (`dropWord?_onOneLine`).
-/

namespace DocumentClient

namespace Text

variable {keyword text rest : List Char}

/-! ## Words at the start of a longer text -/

/-- Text after a keyword does not change how the keyword is read. -/
theorem dropKeyword?_append (h : dropKeyword? keyword text = some rest) (tail : List Char) :
    dropKeyword? keyword (text ++ tail) = some (rest ++ tail) := by
  induction keyword generalizing text with
  | nil =>
      obtain rfl := Option.some.inj h
      rfl
  | cons k keyword ih =>
      cases text with
      | nil => exact nomatch h
      | cons c text =>
          rw [dropKeyword?] at h
          rw [List.cons_append, dropKeyword?]
          split at h
          · next hfold =>
              rw [if_pos hfold]
              exact ih h
          · exact nomatch h

/-- A keyword is not found in the empty text. -/
theorem ne_nil_of_dropKeyword? (hkeyword : keyword ≠ [])
    (h : dropKeyword? keyword text = some rest) : text ≠ [] := by
  rintro rfl
  cases keyword with
  | nil => exact hkeyword rfl
  | cons k keyword => exact nomatch h

/-- Dropping blanks takes at least one and leaves none in front. -/
theorem dropBlanks?_eq_some (h : dropBlanks? text = some rest) :
    ∃ c tail, text = c :: tail ∧ isBlank c = true ∧ rest = trimStart tail := by
  cases text with
  | nil => exact nomatch h
  | cons c tail =>
      rw [dropBlanks?] at h
      split at h
      · next hblank => exact ⟨c, tail, rfl, hblank, (Option.some.inj h).symm⟩
      · exact nomatch h

/-- The blanks before a word end where they ended. -/
theorem dropBlanks?_append (h : dropBlanks? text = some rest) (hrest : rest ≠ [])
    (tail : List Char) : dropBlanks? (text ++ tail) = some (rest ++ tail) := by
  obtain ⟨c, others, rfl, hblank, rfl⟩ := dropBlanks?_eq_some h
  have htrim : trimStart (others ++ tail) = trimStart others ++ tail := by
    rw [trimStart, List.dropWhile_append, if_neg]
    · rfl
    · rwa [List.isEmpty_iff]
  rw [List.cons_append, dropBlanks?, if_pos hblank, htrim]

/-- A word is a keyword and the blanks after it. -/
theorem dropWord?_eq_some {word : String} (h : dropWord? word text = some rest) :
    ∃ blanks, dropKeyword? word.toList text = some blanks ∧ dropBlanks? blanks = some rest :=
  Option.bind_eq_some_iff.mp h

/-- Text after a word is kept, unless the blanks reach to the end. -/
theorem dropWord?_append {word : String} (h : dropWord? word text = some rest)
    (hrest : rest ≠ []) (tail : List Char) :
    dropWord? word (text ++ tail) = some (rest ++ tail) := by
  obtain ⟨blanks, hkeyword, hblanks⟩ := dropWord?_eq_some h
  rw [dropWord?, dropKeyword?_append hkeyword, Option.bind_some,
    dropBlanks?_append hblanks hrest]

/-- The start of a text without blanks at its start has none. -/
theorem trimStart_of_prefix {part : List Char} (hpart : part <+: text)
    (h : trimStart text = text) : trimStart part = part := by
  obtain ⟨tail, rfl⟩ := hpart
  cases part with
  | nil => rfl
  | cons c part =>
      rw [trimStart_cons, not_blank_of_trimStart h, if_neg Bool.false_ne_true]

/-- Trimming the end leaves a first part of the text. -/
theorem prefix_trimEnd (text : List Char) : trimEnd text <+: text :=
  List.rdropWhile_prefix isBlank text

end Text

namespace Command

open Text

/-! ## Words of a text on one line -/

/-- Replacing breaks commutes with dropping a keyword, which holds none. -/
theorem dropKeyword?_onOneLine {keyword : List Char} (hkeyword : keyword.any isBlank = false)
    (text : List Char) :
    dropKeyword? keyword (onOneLine text) = (dropKeyword? keyword text).map onOneLine := by
  induction keyword generalizing text with
  | nil => rfl
  | cons k keyword ih =>
      obtain ⟨hk, hrest⟩ := Bool.or_eq_false_iff.mp hkeyword
      -- A keyword has no letter that a blank folds to.
      have hbreak : ∀ c, c = '\n' ∨ c = '\r' ∨ c = ' ' → fold c ≠ k := by
        rintro c (rfl | rfl | rfl) rfl
        · exact absurd hk (by decide +kernel)
        · exact absurd hk (by decide +kernel)
        · exact absurd hk (by decide +kernel)
      fun_cases replacePairs text with
      | case1 => rfl
      | case2 tail =>
          rw [onOneLine_pair, dropKeyword?, dropKeyword?, if_neg (hbreak _ (.inr (.inr rfl))),
            if_neg (hbreak _ (.inr (.inl rfl)))]
          rfl
      | case3 c tail hpair =>
          rw [onOneLine_cons fun others hc htail => hpair others hc htail, dropKeyword?,
            dropKeyword?]
          by_cases hc : c = '\n' ∨ c = '\r'
          · have hnone : fold c ≠ k := hbreak c (hc.imp_right .inl)
            rw [if_pos hc, if_neg hnone, if_neg (hbreak _ (.inr (.inr rfl)))]
            rfl
          · rw [if_neg hc]
            split
            · exact ih hrest tail
            · rfl

/-- Replacing breaks commutes with dropping blanks, since a break and the space for it are blank. -/
theorem dropBlanks?_onOneLine (text : List Char) :
    dropBlanks? (onOneLine text) = (dropBlanks? text).map onOneLine := by
  have hcr : isBlank '\r' = true := by decide
  have hlf : isBlank '\n' = true := by decide
  have hsp : isBlank ' ' = true := by decide
  fun_cases replacePairs text with
  | case1 => rfl
  | case2 tail =>
      rw [onOneLine_pair, dropBlanks?, dropBlanks?, if_pos hsp, if_pos hcr, trimStart_onOneLine,
        trimStart_cons, if_pos hlf]
      rfl
  | case3 c tail hpair =>
      rw [onOneLine_cons fun others hc htail => hpair others hc htail, dropBlanks?, dropBlanks?,
        isBlank_unbreak, trimStart_onOneLine]
      split <;> rfl

/-- Replacing breaks commutes with dropping a word. -/
theorem dropWord?_onOneLine {word : String} (hword : word.toList.any isBlank = false)
    (text : List Char) :
    dropWord? word (onOneLine text) = (dropWord? word text).map onOneLine := by
  rw [dropWord?, dropKeyword?_onOneLine hword, dropWord?]
  cases dropKeyword? word.toList text with
  | none => rfl
  | some rest => exact dropBlanks?_onOneLine rest

/-- A word ends before a break as it does before a space. -/
theorem endsWord_onOneLine (text : List Char) : endsWord (onOneLine text) = endsWord text := by
  fun_cases replacePairs text with
  | case1 => rfl
  | case2 tail =>
      have hcr : isBlank '\r' = true := by decide
      rw [onOneLine_pair, endsWord, endsWord, hcr]
      decide
  | case3 c tail hpair =>
      rw [onOneLine_cons fun others hc htail => hpair others hc htail]
      exact isBlank_unbreak c

/-- No noun of the schema holds a blank. -/
theorem schemaNouns_not_blank : ∀ noun ∈ schemaNouns, noun.toList.any isBlank = false := by
  decide

/-- No verb of the schema holds a blank. -/
theorem schemaVerbs_not_blank : ∀ verb ∈ schemaVerbs, verb.toList.any isBlank = false := by
  decide

/-- Whether a noun of the schema comes first does not depend on the breaks. -/
theorem startsWithNoun_onOneLine (text : List Char) :
    startsWithNoun schemaNouns (onOneLine text) = startsWithNoun schemaNouns text := by
  rw [Bool.eq_iff_iff]
  simp only [startsWithNoun, List.any_eq_true]
  refine exists_congr fun noun => and_congr_right fun hnoun => ?_
  have hblank := schemaNouns_not_blank noun hnoun
  simp only [dropKeyword?_onOneLine hblank, Option.any_map, endsWord_onOneLine]

/-- Writing a command on one line does not make it a schema change or take one away. -/
theorem changesSchema_onOneLine (text : List Char) :
    changesSchema (onOneLine text) = changesSchema text := by
  rw [Bool.eq_iff_iff]
  simp only [changesSchema, List.any_eq_true]
  refine exists_congr fun verb => and_congr_right fun hverb => ?_
  have hblank := schemaVerbs_not_blank verb hverb
  simp only [dropWord?_onOneLine hblank, Option.any_map, startsWithNoun_onOneLine]

end Command

namespace Memory

open Text Command

/-! ## Schema changes as the engine reads them -/

/-- Whether a statement creates a class, a property or an index. -/
def Statement.changesSchema : Statement → Bool
  | createClass _ _ | createProperty _ _ _ | createIndex _ _ _ _ => true
  | insert _ _ | update _ _ _ | delete _ _ | select _ _ => false

/-- A text starts with the verb and a noun of a schema change, each followed by blanks. -/
def StartsSchemaChange (text : List Char) : Prop :=
  ∃ noun ∈ schemaNouns, ∃ rest after,
    dropWord? "create" text = some rest ∧ dropWord? noun rest = some after

/-- The engine reads a schema change only in a text that starts like one. -/
theorem Statement.startsSchemaChange_of_read {text : List Char} {statement : Statement}
    (h : Statement.read? text = some statement) (hschema : statement.changesSchema = true) :
    StartsSchemaChange text := by
  simp only [Statement.read?, Option.or_eq_some_iff] at h
  rcases h with h | ⟨-, h | ⟨-, h | ⟨-, h | ⟨-, h | ⟨-, h | ⟨-, h⟩⟩⟩⟩⟩⟩
  · simp only [readCreateClass?, bind, Option.bind_eq_some_iff] at h
    obtain ⟨rest, hverb, after, hnoun, -⟩ := h
    exact ⟨"class", by decide, rest, after, hverb, hnoun⟩
  · simp only [readCreateProperty?, bind, Option.bind_eq_some_iff] at h
    obtain ⟨rest, hverb, after, hnoun, -⟩ := h
    exact ⟨"property", by decide, rest, after, hverb, hnoun⟩
  · simp only [readCreateIndex?, bind, Option.bind_eq_some_iff] at h
    obtain ⟨rest, hverb, after, hnoun, -⟩ := h
    exact ⟨"index", by decide, rest, after, hverb, hnoun⟩
  · simp only [readInsert?, bind, Option.bind_eq_some_iff, pure, Option.some.injEq] at h
    obtain ⟨_, -, _, -, _, -, _, -, _, -, rfl⟩ := h
    exact nomatch hschema
  · simp only [readUpdate?, bind, Option.bind_eq_some_iff, pure, Option.some.injEq] at h
    obtain ⟨_, -, _, -, _, -, _, -, _, -, rfl⟩ := h
    exact nomatch hschema
  · simp only [readDelete?, bind, Option.bind_eq_some_iff, pure, Option.some.injEq] at h
    obtain ⟨_, -, _, -, _, -, _, -, rfl⟩ := h
    exact nomatch hschema
  · simp only [readSelect?, bind, Option.bind_eq_some_iff, pure, Option.some.injEq] at h
    obtain ⟨_, -, _, -, _, -, _, -, rfl⟩ := h
    exact nomatch hschema

/-- The classifier finds a schema change at the start of every longer text. -/
theorem StartsSchemaChange.changesSchema {text : List Char} (h : StartsSchemaChange text)
    (tail : List Char) : Command.changesSchema (text ++ tail) = true := by
  obtain ⟨noun, hnoun, rest, after, hverb, hword⟩ := h
  obtain ⟨blanks, hkeyword, hblanks⟩ := dropWord?_eq_some hword
  have hnouns : ∀ noun ∈ schemaNouns, noun.toList ≠ [] := by decide
  have hrest : rest ≠ [] := ne_nil_of_dropKeyword? (hnouns noun hnoun) hkeyword
  obtain ⟨c, others, rfl, hblank, -⟩ := dropBlanks?_eq_some hblanks
  have hstarts : startsWithNoun schemaNouns (rest ++ tail) = true := by
    refine List.any_eq_true.mpr ⟨noun, hnoun, ?_⟩
    rw [dropKeyword?_append hkeyword]
    exact hblank
  refine List.any_eq_true.mpr ⟨"create", by decide, ?_⟩
  rw [dropWord?_append hverb hrest]
  exact hstarts

/-- The statement in a line is a start of the line. -/
theorem Store.prefix_statementText (text : List Char) : statementText text <+: trim text := by
  have hpart : ((trim text).reverse.dropWhile (· == ';')).reverse <+: trim text :=
    List.rdropWhile_prefix (· == ';') (trim text)
  rw [statementText, trim, trimStart_of_prefix hpart (trimStart_trim text)]
  exact (prefix_trimEnd _).trans hpart

/-- The engine reads no schema change in the line of a command that the classifier accepts. -/
theorem changesSchema_of_accept {command : String} (h : Command.classify command = .accept)
    {statement : Statement}
    (hread : Statement.read? (Store.statementText (Command.asRead command)) = some statement) :
    statement.changesSchema = false := by
  refine Bool.eq_false_iff.mpr fun hschema => ?_
  obtain ⟨tail, htail⟩ := Store.prefix_statementText (Command.asRead command)
  have hline : Command.changesSchema (Command.asRead command) = true := by
    have hstarts := Statement.startsSchemaChange_of_read hread hschema
    have hlonger := hstarts.changesSchema tail
    rwa [htail, Command.asRead, trim_trim] at hlonger
  rw [Command.asRead, trim_onOneLine, changesSchema_onOneLine] at hline
  simp [Command.classify, hline] at h

end Memory

end DocumentClient
