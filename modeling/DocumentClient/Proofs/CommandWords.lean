import DocumentClient.Proofs.CommandLines
import DocumentClient.Proofs.UpdateTexts

/-!
# The words of a command

The words of a text stand between runs of blanks. The classifier reads a command from its start and
never cuts it into words, but its answer depends on nothing else: `changesSchema_trim_iff` says that
it looks at the first two of them. `classify_words` draws the consequences. Blanks around a command,
and how many and which blanks stand between two words, make no difference, and a command that is
rejected is rejected with anything behind it.
-/

namespace DocumentClient

namespace Text

/-- The words of a text, which are what stands between runs of blanks. -/
def words (text : List Char) : List (List Char) :=
  (text.splitOnP isBlank).filter (· ≠ [])

variable {blanks text rest word keyword : List Char} {others : List (List Char)}

/-! ## Words and blanks -/

/-- A blank parts the words before it from those behind it. -/
theorem words_append_cons {c : Char} (hblank : isBlank c = true) (front back : List Char) :
    words (front ++ c :: back) = words front ++ words back := by
  rw [words, List.splitOnP_append_cons front back hblank, List.filter_append, words, words]

/-- A blank in front adds no word. -/
theorem words_cons_blank {c : Char} (hblank : isBlank c = true) (text : List Char) :
    words (c :: text) = words text :=
  words_append_cons hblank [] text

/-- Nor do any number of them. -/
theorem words_blanks_append (h : AllBlank blanks) (text : List Char) :
    words (blanks ++ text) = words text := by
  induction blanks with
  | nil => rfl
  | cons c blanks ih =>
      obtain ⟨hc, hrest⟩ := List.forall_mem_cons.mp h
      rw [List.cons_append, words_cons_blank hc, ih hrest]

/-- A run of blanks parts the words before it from those behind it, whatever the run is. -/
theorem words_append_blanks (h : AllBlank blanks) (hne : blanks ≠ []) (front back : List Char) :
    words (front ++ blanks ++ back) = words front ++ words back := by
  cases blanks with
  | nil => exact absurd rfl hne
  | cons c blanks =>
      obtain ⟨hc, hrest⟩ := List.forall_mem_cons.mp h
      rw [List.append_assoc, List.cons_append, words_append_cons hc, words_blanks_append hrest]

/-- Blanks at the end add no word either. -/
theorem words_append_allBlank (h : AllBlank blanks) (text : List Char) :
    words (text ++ blanks) = words text := by
  cases blanks with
  | nil => rw [List.append_nil]
  | cons c blanks =>
      have hparted := words_append_blanks h (List.cons_ne_nil c blanks) text []
      have hnone : words [] = [] := rfl
      rwa [List.append_nil, hnone, List.append_nil] at hparted

/-- Trimming the start of a text keeps its words. -/
theorem words_trimStart (text : List Char) : words (trimStart text) = words text := by
  have hsplit : text.takeWhile isBlank ++ trimStart text = text := List.takeWhile_append_dropWhile
  have hblanks : AllBlank (text.takeWhile isBlank) := fun _ hc => List.mem_takeWhile_imp hc
  rw [← words_blanks_append hblanks (trimStart text), hsplit]

/-- So does trimming its end. -/
theorem words_trimEnd (text : List Char) : words (trimEnd text) = words text := by
  have hsplit : trimEnd text ++ (text.reverse.takeWhile isBlank).reverse = text := by
    rw [trimEnd, ← List.reverse_append, List.takeWhile_append_dropWhile, List.reverse_reverse]
  have hblanks : AllBlank (text.reverse.takeWhile isBlank).reverse :=
    fun _ hc => List.mem_takeWhile_imp (List.mem_reverse.mp hc)
  rw [← words_append_allBlank hblanks (trimEnd text), hsplit]

/-- Trimming a text keeps its words. -/
theorem words_trim (text : List Char) : words (trim text) = words text := by
  rw [trim, words_trimEnd, words_trimStart]

/-! ## The first word -/

/-- A text without blanks is one word. -/
theorem words_of_not_blank (hne : word ≠ []) (hword : ∀ c ∈ word, isBlank c = false) :
    words word = [word] := by
  rw [words, List.splitOnP_eq_singleton hword]
  exact List.filter_cons_of_pos (decide_eq_true hne)

/-- A word ends at the first blank or at the end of the text. -/
theorem words_word_append (hne : word ≠ []) (hword : ∀ c ∈ word, isBlank c = false)
    (hend : Command.endsWord rest = true) : words (word ++ rest) = word :: words rest := by
  cases rest with
  | nil => rw [List.append_nil, words_of_not_blank hne hword]; rfl
  | cons c rest =>
      rw [words_append_cons hend, words_of_not_blank hne hword, words_cons_blank hend]
      rfl

/-- Behind a word the text ends or goes on with a blank. -/
theorem endsWord_dropWhile (text : List Char) :
    Command.endsWord (text.dropWhile (!isBlank ·)) = true := by
  have hhead := List.head?_dropWhile_not (!isBlank ·) text
  cases hrest : text.dropWhile (!isBlank ·) with
  | nil => rfl
  | cons c rest =>
      rw [hrest] at hhead
      show isBlank c = true
      simpa using hhead

/-- The first word of a text starts at its first character that is not blank. -/
theorem words_eq_cons_iff : words text = word :: others ↔
    ∃ rest, trimStart text = word ++ rest ∧ word ≠ [] ∧ (∀ c ∈ word, isBlank c = false) ∧
      Command.endsWord rest = true ∧ words rest = others := by
  constructor
  · intro h
    induction text with
    | nil => exact absurd h.symm (List.cons_ne_nil word others)
    | cons c text ih =>
        by_cases hc : isBlank c
        · rw [trimStart_cons, if_pos hc]
          exact ih (words_cons_blank hc text ▸ h)
        · -- The word is this character and all that follow it up to the next blank.
          have hsplit : text.takeWhile (!isBlank ·) ++ text.dropWhile (!isBlank ·) = text :=
            List.takeWhile_append_dropWhile
          have hword : ∀ d ∈ c :: text.takeWhile (!isBlank ·), isBlank d = false := by
            refine List.forall_mem_cons.mpr ⟨Bool.eq_false_iff.mpr hc, fun d hd => ?_⟩
            simpa using List.mem_takeWhile_imp hd
          have hne := List.cons_ne_nil c (text.takeWhile (!isBlank ·))
          have hfirst := words_word_append hne hword (endsWord_dropWhile text)
          rw [List.cons_append, hsplit, h] at hfirst
          obtain ⟨rfl, rfl⟩ := List.cons.inj hfirst
          rw [trimStart_cons, if_neg hc]
          exact ⟨_, congrArg (c :: ·) hsplit.symm, hne, hword, endsWord_dropWhile text, rfl⟩
  · rintro ⟨rest, htext, hne, hword, hend, rfl⟩
    rw [← words_trimStart, htext, words_word_append hne hword hend]

/-! ## Keywords as words -/

/-- A text whose first word is a keyword starts with it, and goes on with a blank or not at all. -/
theorem words_keyword_iff (hne : keyword ≠ []) (hkeyword : keyword.any isBlank = false)
    (htext : trimStart text = text) (others : List (List Char)) :
    (∃ word, word.map fold = keyword ∧ words text = word :: others) ↔
      ∃ rest, dropKeyword? keyword text = some rest ∧ Command.endsWord rest = true ∧
        words rest = others := by
  constructor
  · rintro ⟨word, hfold, hwords⟩
    obtain ⟨rest, hsplit, -, -, hend, hrest⟩ := words_eq_cons_iff.mp hwords
    rw [htext] at hsplit
    exact ⟨rest, dropKeyword?_eq_some_iff.mpr ⟨word, hsplit, hfold⟩, hend, hrest⟩
  · rintro ⟨rest, hdrop, hend, hrest⟩
    obtain ⟨word, hsplit, hfold⟩ := dropKeyword?_eq_some_iff.mp hdrop
    have hword : word ≠ [] := by
      rintro rfl
      exact hne hfold.symm
    refine ⟨word, hfold, words_eq_cons_iff.mpr ⟨rest, ?_, hword, ?_, hend, hrest⟩⟩
    · rw [htext, hsplit]
    · exact not_blank_of_map_fold hkeyword hfold

/-- A keyword that other words follow is read together with the blanks behind it. -/
theorem words_dropWord?_iff {name : String} (hne : name.toList ≠ [])
    (hname : name.toList.any isBlank = false) (htext : trimStart text = text)
    (hothers : others ≠ []) :
    (∃ word, word.map fold = name.toList ∧ words text = word :: others) ↔
      ∃ rest, dropWord? name text = some rest ∧ words rest = others := by
  rw [words_keyword_iff hne hname htext others]
  constructor
  · rintro ⟨rest, hdrop, hend, rfl⟩
    cases rest with
    -- No word follows a keyword at the end of the text.
    | nil => exact absurd rfl hothers
    | cons c rest =>
        refine ⟨trimStart rest, ?_, ?_⟩
        · rw [dropWord?, hdrop, Option.bind_some, dropBlanks?]
          exact if_pos hend
        · rw [words_trimStart, words_cons_blank hend]
  · rintro ⟨rest, hdrop, rfl⟩
    obtain ⟨blanks, hkeyword, hblanks⟩ := dropWord?_eq_some hdrop
    obtain ⟨c, tail, rfl, hc, rfl⟩ := dropBlanks?_eq_some hblanks
    exact ⟨c :: tail, hkeyword, hc, by rw [words_cons_blank hc, words_trimStart]⟩

/-- The blanks behind a keyword are all taken with it. -/
theorem trimStart_of_dropWord? {name : String} (h : dropWord? name text = some rest) :
    trimStart rest = rest := by
  obtain ⟨blanks, -, hblanks⟩ := dropWord?_eq_some h
  obtain ⟨c, tail, -, -, rfl⟩ := dropBlanks?_eq_some hblanks
  exact List.dropWhile_idempotent isBlank tail

end Text

namespace Command

open Text

/-! ## The words that the classifier looks for -/

/-- The word is one of these names under simple case folding. -/
def IsOneOf (names : List String) (word : List Char) : Prop :=
  ∃ name ∈ names, word.map fold = name.toList.map fold

/-- The first two of some words say that a part of a schema is created, dropped or altered. -/
def BeginSchemaChange (words : List (List Char)) : Prop :=
  ∃ verb noun others, words = verb :: noun :: others ∧
    IsOneOf ["CREATE", "DROP", "ALTER"] verb ∧
    IsOneOf ["CLASS", "PROPERTY", "INDEX", "DATABASE"] noun

/-- A word can be compared with small letters instead. -/
theorem isOneOf_iff {names keywords : List String}
    (h : names.map (·.toList.map fold) = keywords.map String.toList) (word : List Char) :
    IsOneOf names word ↔ ∃ keyword ∈ keywords, word.map fold = keyword.toList := by
  have hnames : IsOneOf names word ↔ word.map fold ∈ names.map (·.toList.map fold) := by
    simp only [IsOneOf, List.mem_map, eq_comm]
  rw [hnames, h]
  simp only [List.mem_map, eq_comm]

/-- The verbs of schema changes, compared with small letters. -/
theorem isOneOf_verbs_iff (word : List Char) : IsOneOf ["CREATE", "DROP", "ALTER"] word ↔
    ∃ verb ∈ schemaVerbs, word.map fold = verb.toList :=
  isOneOf_iff (by decide +kernel) word

/-- The nouns of schema changes, compared with small letters. -/
theorem isOneOf_nouns_iff (word : List Char) :
    IsOneOf ["CLASS", "PROPERTY", "INDEX", "DATABASE"] word ↔
      ∃ noun ∈ schemaNouns, word.map fold = noun.toList :=
  isOneOf_iff (by decide +kernel) word

/-- A text starts with a noun exactly if its first word is one. -/
theorem startsWithNoun_iff {text : List Char} (htext : trimStart text = text) :
    startsWithNoun schemaNouns text = true ↔ ∃ noun others, words text = noun :: others ∧
      IsOneOf ["CLASS", "PROPERTY", "INDEX", "DATABASE"] noun := by
  have hnonempty : ∀ noun ∈ schemaNouns, noun.toList ≠ [] := by decide
  have hwords (name) (hname : name ∈ schemaNouns) :=
    words_keyword_iff (hnonempty name hname) (schemaNouns_not_blank name hname) htext
  simp only [startsWithNoun, List.any_eq_true, Option.any_eq_true, isOneOf_nouns_iff]
  constructor
  · rintro ⟨name, hname, rest, hdrop, hend⟩
    obtain ⟨noun, hfold, hnoun⟩ := (hwords name hname _).mpr ⟨rest, hdrop, hend, rfl⟩
    exact ⟨noun, words rest, hnoun, name, hname, hfold⟩
  · rintro ⟨noun, others, hnoun, name, hname, hfold⟩
    obtain ⟨rest, hdrop, hend, -⟩ := (hwords name hname others).mp ⟨noun, hfold, hnoun⟩
    exact ⟨name, hname, rest, hdrop, hend⟩

/-- A command changes the schema exactly if its first two words say so. -/
theorem changesSchema_trim_iff (text : List Char) :
    changesSchema (trim text) = true ↔ BeginSchemaChange (words text) := by
  have hnonempty : ∀ verb ∈ schemaVerbs, verb.toList ≠ [] := by decide
  have hwords (name) (hname : name ∈ schemaVerbs) (noun others) :=
    words_dropWord?_iff (hnonempty name hname) (schemaVerbs_not_blank name hname)
      (trimStart_trim text) (List.cons_ne_nil noun others)
  rw [← words_trim]
  simp only [changesSchema, List.any_eq_true, Option.any_eq_true]
  constructor
  · rintro ⟨name, hname, rest, hdrop, hstarts⟩
    have hrest := trimStart_of_dropWord? hdrop
    obtain ⟨noun, others, hnoun, hone⟩ := (startsWithNoun_iff hrest).mp hstarts
    obtain ⟨verb, hfold, hverb⟩ := (hwords name hname noun others).mpr ⟨rest, hdrop, hnoun⟩
    exact ⟨verb, noun, others, hverb, (isOneOf_verbs_iff verb).mpr ⟨name, hname, hfold⟩, hone⟩
  · rintro ⟨verb, noun, others, hverb, hone, hnoun⟩
    obtain ⟨name, hname, hfold⟩ := (isOneOf_verbs_iff verb).mp hone
    obtain ⟨rest, hdrop, hrest⟩ := (hwords name hname noun others).mp ⟨verb, hfold, hverb⟩
    have hstarts := (startsWithNoun_iff (trimStart_of_dropWord? hdrop)).mpr
      ⟨noun, others, hrest, hnoun⟩
    exact ⟨name, hname, rest, hdrop, hstarts⟩

/-- A command is rejected exactly if its words begin a schema change. -/
theorem classify_eq_reject_iff (command : String) :
    classify command = .reject ↔ BeginSchemaChange (words command.toList) := by
  rw [← changesSchema_trim_iff, classify]
  split <;> simp [*]

/-- Commands of the same words are classified alike. -/
theorem classify_congr {command other : String}
    (h : words command.toList = words other.toList) : classify command = classify other := by
  have hsame : changesSchema (trim command.toList) = changesSchema (trim other.toList) := by
    rw [Bool.eq_iff_iff, changesSchema_trim_iff, changesSchema_trim_iff, h]
  rw [classify, hsame, classify]

/-- More words behind the first two change nothing. -/
theorem BeginSchemaChange.append {front : List (List Char)} (h : BeginSchemaChange front)
    (back : List (List Char)) : BeginSchemaChange (front ++ back) := by
  obtain ⟨verb, noun, others, rfl, hverb, hnoun⟩ := h
  exact ⟨verb, noun, others ++ back, rfl, hverb, hnoun⟩

/-! ## What a classification depends on -/

/-- The text is a run of one or more blanks. -/
def IsBlankRun (text : String) : Prop :=
  text ≠ "" ∧ isBlankText text = true

instance (text : String) : Decidable (IsBlankRun text) :=
  inferInstanceAs (Decidable (_ ∧ _))

/-- The two ways to say that a text is blank agree. -/
theorem allBlank_iff (text : String) : AllBlank text.toList ↔ isBlankText text = true :=
  List.all_eq_true.symm

/-- A run of blanks parts the words of a command, whatever it is. -/
theorem IsBlankRun.words_append {run : String} (h : IsBlankRun run) (front back : String) :
    words (front ++ run ++ back).toList = words front.toList ++ words back.toList := by
  have hne : run.toList ≠ [] := fun hnil => h.1 (String.toList_eq_nil_iff.mp hnil)
  rw [String.toList_append, String.toList_append]
  exact words_append_blanks ((allBlank_iff run).mpr h.2) hne _ _

/-- A command is classified by its first two words. -/
structure ClassifiedByWords (command : String) : Prop where
  reject_iff : classify command = .reject ↔ BeginSchemaChange (words command.toList)
  surrounded : ∀ before after, isBlankText before = true → isBlankText after = true →
    classify (before ++ command ++ after) = classify command
  /-- Any run of blanks in the command can be replaced by any other. -/
  respaced : ∀ front run back other, command = front ++ run ++ back →
    IsBlankRun run → IsBlankRun other → classify (front ++ other ++ back) = classify command
  normalized : classify (normalized command) = classify command
  continued : classify command = .reject → ∀ run tail, IsBlankRun run →
    classify (command ++ run ++ tail) = .reject

/-- Every command is classified by its first two words. -/
theorem classify_words (command : String) : ClassifiedByWords command where
  reject_iff := classify_eq_reject_iff command
  surrounded before after hbefore hafter := by
    apply classify_congr
    rw [String.toList_append, String.toList_append, words_append_allBlank, words_blanks_append]
    · exact (allBlank_iff before).mpr hbefore
    · exact (allBlank_iff after).mpr hafter
  respaced front run back other hcommand hrun hother := by
    apply classify_congr
    rw [hcommand, hrun.words_append, hother.words_append]
  normalized := by
    rw [classify, toList_normalized, trim_onOneLine, changesSchema_onOneLine, classify]
  continued hreject run tail hrun := by
    rw [classify_eq_reject_iff] at hreject ⊢
    rw [hrun.words_append]
    exact hreject.append _

/-- A long `s` is a letter of a noun, and a narrow space without a break in lines ends a verb. -/
theorem classify_words_dropClass :
    let command := "dRop\u202FCLAſS"
    BeginSchemaChange (words command.toList) ∧ IsBlankRun "\n" ∧
      classify (command ++ "\n" ++ "es") = .reject ∧ classify (command ++ "es") = .accept := by
  intro command
  have hdecided := classify_words command
  have hreject : classify command = .reject := by decide +kernel
  have hrun : IsBlankRun "\n" := by decide
  exact ⟨hdecided.reject_iff.mp hreject, hrun, hdecided.continued hreject "\n" "es" hrun,
    by decide +kernel⟩

end Command

end DocumentClient
