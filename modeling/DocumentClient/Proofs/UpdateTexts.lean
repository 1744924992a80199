import DocumentClient.Memory.Statement
import DocumentClient.Proofs.AssignmentTexts
import DocumentClient.Proofs.SchemaWords
import Mathlib.Data.List.Infix

/-!
# Where an update is cut

An update is cut in front of the first `WHERE` that stands between blanks and has a text before it.
The search does not know about quotes. `cutWhere?_assignmentsText` says that the cut is made behind
the assignments as long as no quoted literal holds such a `WHERE` and no field after the first one
is called so. Otherwise it is made too early, and then what stands before or behind it is not read
(`cutWhere?_misread`).
-/

namespace DocumentClient

namespace Text

/-! ## Keywords between blanks -/

/-- Blanks have no case. -/
theorem fold_of_isBlank {c : Char} (h : isBlank c = true) : fold c = c := by
  have hpoints : ∀ point ∈ blankPoints, fold (Char.ofNat point) = Char.ofNat point := by
    decide +kernel
  have hfold := hpoints c.toNat (toNat_mem_blankPoints h)
  rwa [Char.ofNat_toNat] at hfold

variable {keyword text rest : List Char}

/-- Letters that fold to those of a keyword are not blank. -/
theorem not_blank_of_map_fold {word : List Char} (hkeyword : keyword.any isBlank = false)
    (h : word.map fold = keyword) : ∀ c ∈ word, isBlank c = false := by
  intro c hc
  refine Bool.eq_false_iff.mpr fun hblank => ?_
  have hmem : fold c ∈ keyword := h ▸ List.mem_map_of_mem hc
  rw [fold_of_isBlank hblank] at hmem
  exact List.any_eq_false.mp hkeyword c hmem hblank

/-- A character that is no part of a keyword ends the search for it. -/
theorem dropKeyword?_append_cons {mark : Char} (hmark : fold mark ∉ keyword)
    (text more : List Char) :
    dropKeyword? keyword (text ++ mark :: more) =
      (dropKeyword? keyword text).map (· ++ mark :: more) := by
  induction keyword generalizing text with
  | nil => rfl
  | cons k keyword ih =>
      obtain ⟨hk, hkeyword⟩ := not_or.mp (mt List.mem_cons.mpr hmark)
      cases text with
      | nil => exact if_neg hk
      | cons c text =>
          rw [List.cons_append, dropKeyword?, dropKeyword?]
          split
          · exact ih hkeyword text
          · rfl

/-- Blanks are dropped before a mark as without it. -/
theorem dropBlanks?_append_cons {mark : Char} (hmark : isBlank mark = false)
    (text more : List Char) :
    dropBlanks? (text ++ mark :: more) = (dropBlanks? text).map (· ++ mark :: more) := by
  cases text with
  | nil => simp [dropBlanks?, hmark]
  | cons c text =>
      have htrim : trimStart (text ++ mark :: more) = trimStart text ++ mark :: more := by
        induction text with
        | nil => rw [List.nil_append, trimStart_cons, hmark]; rfl
        | cons d text ih =>
            rw [List.cons_append, trimStart_cons, trimStart_cons, ih]
            split <;> rfl
      rw [List.cons_append, dropBlanks?, dropBlanks?, htrim]
      split <;> rfl

/-- A character that is not blank and no part of a keyword ends the search for it. -/
theorem dropInnerWord?_append_cons {word : String} {mark : Char} (hblank : isBlank mark = false)
    (hmark : fold mark ∉ word.toList) (text more : List Char) :
    dropInnerWord? word (text ++ mark :: more) =
      (dropInnerWord? word text).map (· ++ mark :: more) := by
  rw [dropInnerWord?, dropBlanks?_append_cons hblank, dropInnerWord?]
  cases dropBlanks? text with
  | none => rfl
  | some rest =>
      show dropWord? word (rest ++ mark :: more) = (dropWord? word rest).map _
      rw [dropWord?, dropKeyword?_append_cons hmark, dropWord?]
      cases dropKeyword? word.toList rest with
      | none => rfl
      | some rest => exact dropBlanks?_append_cons hblank rest more

/-- A word up to a blank is the keyword or is not. -/
theorem dropKeyword?_word (hkeyword : fold ' ' ∉ keyword) {word : List Char}
    (hword : ∀ c ∈ word, isBlank c = false) (more : List Char) :
    (dropKeyword? keyword (word ++ ' ' :: more)).bind dropBlanks? =
      if word.map fold = keyword then some (trimStart more) else none := by
  induction keyword generalizing word with
  | nil =>
      cases word with
      | nil => rfl
      | cons c word => simp [dropKeyword?, dropBlanks?, hword c List.mem_cons_self]
  | cons k keyword ih =>
      obtain ⟨hk, hothers⟩ := not_or.mp (mt List.mem_cons.mpr hkeyword)
      cases word with
      | nil => simp [dropKeyword?, hk]
      | cons c word =>
          obtain ⟨-, hrest⟩ := List.forall_mem_cons.mp hword
          rw [List.cons_append, dropKeyword?, List.map_cons]
          by_cases hc : fold c = k
          · rw [if_pos hc, ih hothers hrest]
            simp [hc]
          · simp [hc]

/-- What stands in front of a found keyword's end folds to the keyword. -/
theorem dropKeyword?_eq_some_iff : dropKeyword? keyword text = some rest ↔
    ∃ word, text = word ++ rest ∧ word.map fold = keyword := by
  induction keyword generalizing text with
  | nil =>
      simp only [dropKeyword?, Option.some.injEq, List.map_eq_nil_iff, exists_eq_right,
        List.nil_append]
  | cons k keyword ih =>
      cases text with
      | nil => simp [dropKeyword?]
      | cons c text =>
          simp only [dropKeyword?, Option.ite_none_right_eq_some, ih, List.map_eq_cons_iff]
          constructor
          · rintro ⟨hc, word, rfl, hword⟩
            exact ⟨c :: word, rfl, c, word, rfl, hc, hword⟩
          · rintro ⟨_, htext, d, word, rfl, hd, hword⟩
            obtain ⟨rfl, rfl⟩ := List.cons.inj htext
            exact ⟨hd, word, rfl, hword⟩

/-- The text is the word `WHERE` in any case. -/
def IsWhere (text : List Char) : Prop :=
  text.map fold = "where".toList

instance (text : List Char) : Decidable (IsWhere text) :=
  inferInstanceAs (Decidable (text.map fold = "where".toList))

/-- The word `WHERE` stands in the text between two blanks. -/
def HoldsWhere (text : List Char) : Prop :=
  ∃ front before word after back, text = front ++ before :: (word ++ after :: back) ∧
    isBlank before = true ∧ IsWhere word ∧ isBlank after = true

/-- No spelling of `WHERE` holds a blank. -/
theorem IsWhere.not_blank (h : IsWhere text) : ∀ c ∈ text, isBlank c = false :=
  not_blank_of_map_fold (by decide) h

/-- No spelling of `WHERE` is empty. -/
theorem IsWhere.ne_nil (h : IsWhere text) : text ≠ [] := by
  rintro rfl
  exact nomatch h

/-- A word inside a statement follows a blank. -/
theorem dropInnerWord?_of_not_blank {word : String} {c : Char} (hc : isBlank c = false)
    (text : List Char) : dropInnerWord? word (c :: text) = none := by
  simp [dropInnerWord?, dropBlanks?, hc]

/-- More blanks in front of a keyword make no difference. -/
theorem dropInnerWord?_cons_blank {word : String} {c : Char} (hc : isBlank c = true)
    (h : dropInnerWord? word text = some rest) : dropInnerWord? word (c :: text) = some rest := by
  obtain ⟨middle, hblanks, hword⟩ := Option.bind_eq_some_iff.mp h
  obtain ⟨d, tail, rfl, hd, rfl⟩ := dropBlanks?_eq_some hblanks
  rw [dropInnerWord?, dropBlanks?, if_pos hc, trimStart_cons, if_pos hd]
  exact hword

/-- At no place in the text the keyword is found, with blanks before and after it. -/
def Quiet (text : List Char) : Prop :=
  ∀ rest, rest <:+ text → dropInnerWord? "where" rest = none

/-- Nothing holds no condition. -/
theorem quiet_nil : Quiet [] := by
  intro rest hrest
  rw [List.suffix_nil.mp hrest]
  rfl

/-- A text holds no condition if none begins at its start or in its rest. -/
theorem quiet_cons_iff {c : Char} :
    Quiet (c :: text) ↔ dropInnerWord? "where" (c :: text) = none ∧ Quiet text := by
  constructor
  · intro h
    exact ⟨h _ List.suffix_rfl, fun rest hrest => h rest (hrest.trans (List.suffix_cons c text))⟩
  · rintro ⟨hall, htext⟩ rest hrest
    rcases List.suffix_cons_iff.mp hrest with rfl | hrest
    · exact hall
    · exact htext rest hrest

/-- A word in front begins no condition, since a condition begins with a blank. -/
theorem Quiet.append_left {word : List Char} (hword : ∀ c ∈ word, isBlank c = false)
    (h : Quiet text) : Quiet (word ++ text) := by
  induction word with
  | nil => exact h
  | cons c word ih =>
      obtain ⟨hc, hrest⟩ := List.forall_mem_cons.mp hword
      exact quiet_cons_iff.mpr ⟨dropInnerWord?_of_not_blank hc _, ih hrest⟩

/-- Searching for the keyword at every place finds it exactly in the texts that hold it. -/
theorem holdsWhere_iff : HoldsWhere text ↔ ¬ Quiet text := by
  constructor
  · rintro ⟨front, before, word, after, back, rfl, hbefore, hword, hafter⟩ hquiet
    have hnone := hquiet (before :: (word ++ after :: back)) (List.suffix_append _ _)
    have hstart := trimStart_word_append hword.ne_nil hword.not_blank (after :: back)
    have hkeyword : dropKeyword? "where".toList (word ++ after :: back) = some (after :: back) :=
      dropKeyword?_eq_some_iff.mpr ⟨word, rfl, hword⟩
    rw [dropInnerWord?, dropBlanks?, if_pos hbefore, hstart, Option.bind_some, dropWord?, hkeyword,
      Option.bind_some, dropBlanks?, if_pos hafter] at hnone
    cases hnone
  · intro h
    simp only [Quiet, not_forall] at h
    obtain ⟨part, ⟨front, rfl⟩, hsome⟩ := h
    obtain ⟨rest, hrest⟩ := Option.ne_none_iff_exists'.mp hsome
    obtain ⟨middle, hblanks, hword⟩ := Option.bind_eq_some_iff.mp hrest
    obtain ⟨c, tail, rfl, hc, rfl⟩ := dropBlanks?_eq_some hblanks
    obtain ⟨behind, hkeyword, hbehind⟩ := dropWord?_eq_some hword
    obtain ⟨word, hmiddle, hfold⟩ := dropKeyword?_eq_some_iff.mp hkeyword
    obtain ⟨after, back, rfl, hafter, -⟩ := dropBlanks?_eq_some hbehind
    -- The blank in front of the word is the last one of the run of blanks there.
    have hrun : ∀ d ∈ c :: tail.takeWhile isBlank, isBlank d = true := by
      refine List.forall_mem_cons.mpr ⟨hc, fun d hd => ?_⟩
      exact List.mem_takeWhile_imp hd
    obtain ⟨blanks, before, hlast⟩ :=
      (List.eq_nil_or_concat (c :: tail.takeWhile isBlank)).resolve_left (List.cons_ne_nil _ _)
    rw [List.concat_eq_append] at hlast
    refine ⟨front ++ blanks, before, word, after, back, ?_, hrun before ?_, hfold, hafter⟩
    · have htail : tail = tail.takeWhile isBlank ++ (word ++ after :: back) := by
        rw [← hmiddle, trimStart, List.takeWhile_append_dropWhile]
      calc front ++ c :: tail
          = front ++ ((c :: tail.takeWhile isBlank) ++ (word ++ after :: back)) := by
            rw [List.cons_append, ← htail]
        _ = front ++ blanks ++ before :: (word ++ after :: back) := by
            rw [hlast, List.append_assoc, List.append_assoc]
            rfl
    · rw [hlast]
      exact List.mem_append_right _ List.mem_cons_self

instance (text : List Char) : Decidable (Quiet text) :=
  decidable_of_iff (∀ rest ∈ text.tails, dropInnerWord? "where" rest = none)
    (forall_congr' fun rest => imp_congr_left (List.mem_tails rest text))

instance (text : List Char) : Decidable (HoldsWhere text) :=
  decidable_of_iff (¬ Quiet text) holdsWhere_iff.symm

/-- What is found behind a keyword is the end of the text. -/
theorem suffix_of_dropInnerWord? {word : String} (h : dropInnerWord? word text = some rest) :
    rest <:+ text := by
  obtain ⟨middle, hblanks, hword⟩ := Option.bind_eq_some_iff.mp h
  obtain ⟨c, tail, rfl, -, rfl⟩ := dropBlanks?_eq_some hblanks
  obtain ⟨behind, hkeyword, hbehind⟩ := dropWord?_eq_some hword
  obtain ⟨front, hmiddle, -⟩ := dropKeyword?_eq_some_iff.mp hkeyword
  obtain ⟨d, back, rfl, -, rfl⟩ := dropBlanks?_eq_some hbehind
  have hback : trimStart back <:+ d :: back :=
    (List.dropWhile_suffix isBlank).trans (List.suffix_cons d back)
  have htail : trimStart tail <:+ c :: tail :=
    (List.dropWhile_suffix isBlank).trans (List.suffix_cons c tail)
  exact (hback.trans ⟨front, hmiddle.symm⟩).trans htail

end Text

namespace Memory.Statement

open Text

/-! ## Passing over a text -/

/-- Whether a character ends every search for `WHERE`. -/
def IsMark (c : Char) : Prop :=
  isBlank c = false ∧ fold c ∉ "where".toList

instance (c : Char) : Decidable (IsMark c) :=
  inferInstanceAs (Decidable (_ ∧ _))

/-- Every separator of assignments does. -/
theorem isMark_of_separator : ∀ c ∈ separators, IsMark c := by
  rw [separators, List.forall_mem_cons, List.forall_mem_cons, List.forall_mem_singleton]
  exact ⟨by decide +kernel, by decide +kernel, by decide +kernel⟩

variable {text more : List Char} {mark : Char}

/-- Without `WHERE` there is no condition. -/
theorem whereClause?_of_none (h : dropInnerWord? "where" text = none) :
    whereClause? text = none := by
  rw [whereClause?, h, Option.bind_none]

/-- A text on one line behind `WHERE` is a condition. -/
theorem whereClause?_of_some {rest : List Char} (h : dropInnerWord? "where" text = some rest)
    (hne : rest ≠ []) (hline : '\n' ∉ rest) : whereClause? text = some rest := by
  rw [whereClause?, h, Option.bind_some, clause?, if_neg (by simp [hne, hline])]

/-- One step of the search for a condition. -/
theorem cutWhere?_cons (c : Char) (text : List Char) : cutWhere? (c :: text) =
    if c = '\n' then none
    else
      match if isBlank c then none else whereClause? text with
      | some condition => some ([c], some condition)
      | none =>
        if text.isEmpty then some ([c], none)
        else (cutWhere? text).map fun found => (c :: found.1, found.2) :=
  -- In parentheses, because to register this as a definitional equation takes seconds.
  (rfl)

/-- The cut moves on from a character that no condition follows. -/
theorem cutWhere?_of_none {c : Char} (hc : c ≠ '\n') (hne : text ≠ [])
    (h : isBlank c = true ∨ whereClause? text = none) :
    cutWhere? (c :: text) = (cutWhere? text).map fun found => (c :: found.1, found.2) := by
  have hnone : (if isBlank c = true then none else whereClause? text) = none := by
    split
    · rfl
    · next hblank => exact h.resolve_left hblank
  rw [cutWhere?_cons, if_neg hc, hnone]
  simp [hne]

/-- The cut stops at the first character that a condition follows. -/
theorem cutWhere?_of_some {c : Char} {condition : List Char} (hc : isBlank c = false)
    (h : whereClause? text = some condition) :
    cutWhere? (c :: text) = some ([c], some condition) := by
  have hline : c ≠ '\n' := by
    rintro rfl
    exact absurd hc (by decide)
  rw [cutWhere?_cons, if_neg hline, if_neg (by simp [hc]), h]

/-- Nothing is cut in a text in which no `WHERE` stands between blanks. -/
theorem cutWhere?_append_cons {c : Char} (hmark : IsMark mark) (hline : '\n' ∉ c :: text)
    (hquiet : Quiet text) (more : List Char) :
    cutWhere? (c :: text ++ mark :: more) =
      (cutWhere? (mark :: more)).map fun found => (c :: text ++ found.1, found.2) := by
  induction text generalizing c with
  | nil =>
      have hnone := whereClause?_of_none (dropInnerWord?_of_not_blank hmark.1 more)
      have hc : c ≠ '\n' := Ne.symm (List.ne_of_not_mem_cons hline)
      exact cutWhere?_of_none hc (List.cons_ne_nil _ _) (.inr hnone)
  | cons d text ih =>
      obtain ⟨hfirst, hrest⟩ := quiet_cons_iff.mp hquiet
      have hnone : whereClause? (d :: text ++ mark :: more) = none := by
        refine whereClause?_of_none ?_
        rw [dropInnerWord?_append_cons hmark.1 hmark.2, hfirst, Option.map_none]
      have hc : c ≠ '\n' := Ne.symm (List.ne_of_not_mem_cons hline)
      rw [List.cons_append, cutWhere?_of_none hc (by simp) (.inr hnone),
        ih (List.not_mem_of_not_mem_cons hline) hrest, Option.map_map]
      rfl

/-- A text in which a `WHERE` stands between blanks is cut within. If a blank comes before the text,
then the blanks at its start have been tried already. -/
theorem cutWhere?_loud {c : Char} (hmark : IsMark mark)
    (hline : '\n' ∉ c :: text ++ mark :: more) (hloud : ¬ Quiet text)
    (hc : isBlank c = true → dropInnerWord? "where" text = none) :
    ∃ front back, front <+: text ∧
      cutWhere? (c :: text ++ mark :: more) = some (c :: front, some back) := by
  induction text generalizing c with
  | nil => exact absurd quiet_nil hloud
  | cons d text ih =>
      have happend := dropInnerWord?_append_cons hmark.1 hmark.2 (d :: text) more
      cases hfirst : dropInnerWord? "where" (d :: text) with
      | some rest =>
          rw [hfirst, Option.map_some] at happend
          have hblank : isBlank c = false := by
            refine Bool.eq_false_iff.mpr fun hblank => ?_
            rw [hc hblank] at hfirst
            cases hfirst
          have hrest : '\n' ∉ rest ++ mark :: more := by
            intro hmem
            have hsuffix := suffix_of_dropInnerWord? happend
            exact hline (List.mem_cons_of_mem _ (hsuffix.subset hmem))
          exact ⟨[], _, List.nil_prefix,
            cutWhere?_of_some hblank (whereClause?_of_some happend (by simp) hrest)⟩
      | none =>
          rw [hfirst, Option.map_none] at happend
          have hnext : isBlank d = true → dropInnerWord? "where" text = none := by
            intro hd
            by_contra hsome
            obtain ⟨rest, hrest⟩ := Option.ne_none_iff_exists'.mp hsome
            rw [dropInnerWord?_cons_blank hd hrest] at hfirst
            cases hfirst
          have hrest : ¬ Quiet text := fun hquiet => hloud (quiet_cons_iff.mpr ⟨hfirst, hquiet⟩)
          obtain ⟨front, back, hfront, hcut⟩ := ih (List.not_mem_of_not_mem_cons hline) hrest hnext
          refine ⟨d :: front, back, List.cons_prefix_cons.mpr ⟨rfl, hfront⟩, ?_⟩
          have hbreak : c ≠ '\n' := Ne.symm (List.ne_of_not_mem_cons hline)
          rw [List.cons_append, cutWhere?_of_none hbreak (by simp)
            (.inr (whereClause?_of_none happend)), hcut]
          rfl

/-- Behind a word the text ends or a condition follows. -/
theorem cutWhere?_word {c : Char} {word tail : List Char} {condition : Option (List Char)}
    (hc : isBlank c = false) (hword : ∀ d ∈ word, isBlank d = false)
    (htail : optionalWhere? tail = some condition) :
    cutWhere? (c :: word ++ tail) = some (c :: word, condition) := by
  have hline : ∀ {c : Char}, isBlank c = false → c ≠ '\n' := by
    rintro c hc rfl
    exact absurd hc (by decide)
  induction word generalizing c with
  | nil =>
      cases tail with
      | nil =>
          obtain rfl := Option.some.inj htail
          rw [List.append_nil, cutWhere?_cons, if_neg (hline hc), hc]
          rfl
      | cons d tail =>
          obtain ⟨text, htext, rfl⟩ := Option.map_eq_some_iff.mp htail
          exact cutWhere?_of_some hc htext
  | cons d word ih =>
      obtain ⟨hd, hrest⟩ := List.forall_mem_cons.mp hword
      have hnone : whereClause? (d :: word ++ tail) = none :=
        whereClause?_of_none (dropInnerWord?_of_not_blank hd _)
      rw [List.cons_append, cutWhere?_of_none (hline hc) (by simp) (.inr hnone), ih hd hrest]
      rfl

/-! ## Passing over an equation -/

/-- A character ends every search if its lower-case form does. -/
theorem isMark_of_lowerAscii {c : Char} (h : IsMark (lowerAscii c)) : IsMark c := by
  unfold lowerAscii at h
  split at h
  · next hcapital =>
      have hcapitals : ∀ point ∈ List.range' 65 26,
          IsMark (Char.ofNat (point + 32)) → IsMark (Char.ofNat point) := by
        decide +kernel
      have hlow : 65 ≤ c.toNat := hcapital.1
      have hhigh : c.toNat ≤ 90 := hcapital.2
      have hmark := hcapitals c.toNat (List.mem_range'_1.mpr ⟨hlow, by omega⟩) h
      rwa [Char.ofNat_toNat] at hmark
  · exact h

/-- A digit ends every search. -/
theorem isMark_of_isDigit {c : Char} (h : c.isDigit = true) : IsMark c := by
  have hdigits : ∀ point ∈ List.range' 48 10, IsMark (Char.ofNat point) := by decide +kernel
  simp only [Char.isDigit, Bool.and_eq_true, decide_eq_true_eq] at h
  have hlow : 48 ≤ c.toNat := h.1
  have hhigh : c.toNat ≤ 57 := h.2
  have hmark := hdigits c.toNat (List.mem_range'_1.mpr ⟨hlow, by omega⟩)
  rwa [Char.ofNat_toNat] at hmark

/-- A written number begins with such a character. -/
theorem exists_mark_of_isDecimal {text : List Char} {n : Int} (h : IsDecimal text n) :
    ∃ mark rest, text = mark :: rest ∧ IsMark mark := by
  cases h with
  | plus digits => exact ⟨'+', digits, rfl, by decide +kernel⟩
  | minus digits => exact ⟨'-', digits, rfl, by decide +kernel⟩
  | plain _ hne hdigits =>
      obtain ⟨c, rest, rfl⟩ := List.exists_cons_of_ne_nil hne
      exact ⟨c, rest, rfl, isMark_of_isDigit (hdigits c List.mem_cons_self)⟩

/-- No literal starts like the keyword. -/
theorem exists_mark_of_spells {literal : List Char} {value : Value} (h : Spells literal value) :
    ∃ mark rest, literal = mark :: rest ∧ IsMark mark := by
  have hword : ∀ {d : Char} {word : List Char}, literal.map lowerAscii = d :: word → IsMark d →
      ∃ mark rest, literal = mark :: rest ∧ IsMark mark := by
    intro d word hliteral hd
    obtain ⟨c, rest, rfl, hc, -⟩ := List.map_eq_cons_iff.mp hliteral
    exact ⟨c, rest, rfl, isMark_of_lowerAscii (hc ▸ hd)⟩
  cases h with
  | null _ h => exact hword h (by decide +kernel)
  | bool _ b h =>
      cases b with
      | false => exact hword h (by decide +kernel)
      | true => exact hword h (by decide +kernel)
  | integer _ n h => exact exists_mark_of_isDecimal h
  | quoted body => exact ⟨'\x27', body ++ ['\x27'], rfl, isMark_of_separator _ (by decide)⟩

/-- A single space holds no condition. -/
theorem quiet_space : Quiet [' '] :=
  quiet_cons_iff.mpr ⟨rfl, quiet_nil⟩

/-- A literal is passed over up to a character at its end behind which no blank follows. -/
theorem cutWhere?_literal {literal : List Char} {value : Value} (h : Spells literal value)
    (hline : '\n' ∉ literal) (hquiet : ∀ body, value = .string (String.ofList body) → Quiet body) :
    ∃ front c word, literal = front ++ c :: word ∧ isBlank c = false ∧
      (∀ d ∈ word, isBlank d = false) ∧ ∀ more,
        cutWhere? ('=' :: ' ' :: (literal ++ more)) =
          (cutWhere? (c :: word ++ more)).map fun found =>
            ('=' :: ' ' :: (front ++ found.1), found.2) := by
  obtain ⟨mark, rest, hliteral, hmark⟩ := exists_mark_of_spells h
  have hequals : ∀ more, cutWhere? ('=' :: ' ' :: mark :: more) =
      (cutWhere? (mark :: more)).map fun found => ('=' :: ' ' :: found.1, found.2) :=
    cutWhere?_append_cons hmark (by decide) quiet_space
  rcases h.quoted_or_plain with ⟨body, rfl, hbody, hvalue⟩ | hplain
  · obtain ⟨rfl, rfl⟩ := List.cons.inj hliteral
    have hfree : '\n' ∉ '\x27' :: body := fun hmem => hline (List.mem_append_left _ hmem)
    refine ⟨'\x27' :: body, '\x27', [], rfl, hmark.1, List.forall_mem_nil _, fun more => ?_⟩
    have hpass := cutWhere?_append_cons hmark hfree (hquiet body hvalue) more
    simp only [List.cons_append, List.append_assoc, List.nil_append] at hpass ⊢
    rw [hequals, hpass, Option.map_map]
    rfl
  · subst hliteral
    obtain ⟨hblank, hword⟩ := List.forall_mem_cons.mp hplain.not_blank
    exact ⟨[], mark, rest, rfl, hblank, hword, fun more => hequals (rest ++ more)⟩

/-- The last literal is followed by a condition or by the end of the text. -/
theorem cutWhere?_lastLiteral {literal : List Char} {value : Value} (h : Spells literal value)
    (hline : '\n' ∉ literal) (hquiet : ∀ body, value = .string (String.ofList body) → Quiet body)
    {tail : List Char} {condition : Option (List Char)}
    (htail : optionalWhere? tail = some condition) :
    cutWhere? ('=' :: ' ' :: (literal ++ tail)) = some ('=' :: ' ' :: literal, condition) := by
  obtain ⟨front, c, word, rfl, hc, hword, hpass⟩ := cutWhere?_literal h hline hquiet
  rw [hpass, cutWhere?_word hc hword htail]
  rfl

/-- Between the assignments nothing is cut. -/
theorem cutWhere?_nextLiteral {literal : List Char} {value : Value} (h : Spells literal value)
    (hline : '\n' ∉ literal) (hquiet : ∀ body, value = .string (String.ofList body) → Quiet body)
    (more : List Char) :
    cutWhere? ('=' :: ' ' :: (literal ++ ',' :: more)) = (cutWhere? (',' :: more)).map fun found =>
      ('=' :: ' ' :: (literal ++ found.1), found.2) := by
  obtain ⟨front, c, word, rfl, hc, hword, hpass⟩ := cutWhere?_literal h hline hquiet
  have hquietword : Quiet word := by
    have happend := quiet_nil.append_left hword
    rwa [List.append_nil] at happend
  have hfree : '\n' ∉ c :: word := fun hmem => hline (List.mem_append_right _ hmem)
  rw [hpass, cutWhere?_append_cons (isMark_of_separator _ (by decide)) hfree hquietword,
    Option.map_map]
  simp only [Function.comp_def, List.append_assoc]

/-- A literal in which a `WHERE` stands between blanks is cut within its quotes. -/
theorem cutWhere?_loudLiteral {body more : List Char} (hbody : ¬ Quiet body)
    (hline : '\n' ∉ '\x27' :: body ++ '\x27' :: more) :
    ∃ front back, front <+: body ∧
      cutWhere? ('=' :: ' ' :: ('\x27' :: body ++ ['\x27'] ++ more)) =
        some ('=' :: ' ' :: '\x27' :: front, some back) := by
  have hquote : IsMark '\x27' := isMark_of_separator _ (by decide)
  have hequals := cutWhere?_append_cons (c := '=') hquote (by decide) quiet_space
    (body ++ '\x27' :: more)
  obtain ⟨front, back, hfront, hcut⟩ := cutWhere?_loud hquote hline hbody
    (fun hblank => absurd hblank (by simp [hquote.1]))
  refine ⟨front, back, hfront, ?_⟩
  simp only [List.cons_append, List.append_assoc, List.nil_append] at hequals hcut ⊢
  rw [hequals, hcut]
  rfl

/-- A name before its equals sign is never cut. -/
theorem cutWhere?_name {name : List Char} (h : IsName name) (more : List Char) :
    cutWhere? (name ++ ' ' :: '=' :: more) = (cutWhere? ('=' :: more)).map fun found =>
      (name ++ ' ' :: found.1, found.2) := by
  obtain ⟨c, rest, rfl⟩ := List.exists_cons_of_ne_nil h.ne_nil
  obtain ⟨-, hrest⟩ := List.forall_mem_cons.mp h.not_blank
  have hline : '\n' ∉ c :: (rest ++ [' ']) := by
    have hname : '\n' ∉ _ := h.not_mem (not_isWord_of_isBlank (by decide))
    simpa using hname
  have hpass := cutWhere?_append_cons (isMark_of_separator '=' (by decide)) hline
    (quiet_space.append_left hrest) more
  simpa using hpass

/-- A name is taken for `WHERE` exactly if it spells it. -/
theorem dropInnerWord?_name {name : List Char} (h : IsName name) (more : List Char) :
    dropInnerWord? "where" (' ' :: (name ++ ' ' :: more)) =
      if IsWhere name then some (trimStart more) else none := by
  rw [dropInnerWord?, dropBlanks?, if_pos isBlank_space, h.trimStart_append, Option.bind_some,
    dropWord?, dropKeyword?_word (by decide +kernel) h.not_blank]
  rfl

/-- The name of a field is passed over, unless it is the keyword. -/
theorem cutWhere?_nextName {name : List Char} (h : IsName name) (hwhere : ¬ IsWhere name)
    (more : List Char) :
    cutWhere? (',' :: ' ' :: (name ++ ' ' :: '=' :: more)) =
      (cutWhere? (name ++ ' ' :: '=' :: more)).map fun found =>
        (',' :: ' ' :: found.1, found.2) := by
  have hline : '\n' ∉ ',' :: ' ' :: (name ++ [' ']) := by
    have hname : '\n' ∉ _ := h.not_mem (not_isWord_of_isBlank (by decide))
    simpa using hname
  have hquiet : Quiet (' ' :: (name ++ [' '])) := by
    refine quiet_cons_iff.mpr ⟨?_, quiet_space.append_left h.not_blank⟩
    rw [dropInnerWord?_name h, if_neg hwhere]
  have hpass := cutWhere?_append_cons (isMark_of_separator '=' (by decide)) hline hquiet more
  simp only [List.cons_append, List.append_assoc, List.nil_append] at hpass
  rw [hpass, cutWhere?_name h, Option.map_map]
  rfl

/-- A field that has the name of the keyword is taken for it. -/
theorem cutWhere?_whereName {name more : List Char} (h : IsName name) (hwhere : IsWhere name)
    (hline : '\n' ∉ more) :
    cutWhere? (',' :: ' ' :: (name ++ ' ' :: '=' :: more)) = some ([','], some ('=' :: more)) := by
  have hfound : dropInnerWord? "where" (' ' :: (name ++ ' ' :: '=' :: more)) =
      some ('=' :: more) := by
    rw [dropInnerWord?_name h, if_pos hwhere, IsVisible.trimStart_cons (by decide)]
  have hfree : '\n' ∉ '=' :: more := by simpa using hline
  exact cutWhere?_of_some (by decide) (whereClause?_of_some hfound (List.cons_ne_nil _ _) hfree)

/-! ## Cutting an update -/

/-- A quoted literal of the equation has a `WHERE` between blanks. -/
def HidesWhere (e : Equation) : Prop :=
  ∃ text, e.value = .string text ∧ HoldsWhere text.toList

/-- Only a quoted text can hide a condition. -/
theorem hidesWhere_iff {e : Equation} :
    HidesWhere e ↔ ∃ text ∈ e.value.asString?, HoldsWhere text.toList := by
  refine exists_congr fun text => and_congr_left fun _ => ?_
  cases e.value <;> simp [Value.asString?]

instance (e : Equation) : Decidable (HidesWhere e) :=
  decidable_of_iff _ hidesWhere_iff.symm

/-- A quoted text that hides none is passed over. -/
theorem quiet_of_not_hidesWhere {e : Equation} (h : ¬ HidesWhere e) {body : List Char}
    (hvalue : e.value = .string (String.ofList body)) : Quiet body := by
  by_contra hloud
  exact h ⟨_, hvalue, by rw [String.toList_ofList]; exact holdsWhere_iff.mpr hloud⟩

/-- An equation in front of a comma is passed over. -/
theorem cutWhere?_text {e : Equation} (h : ¬ HidesWhere e) (hline : '\n' ∉ e.text)
    (more : List Char) :
    cutWhere? (e.text ++ ',' :: more) = (cutWhere? (',' :: more)).map fun found =>
      (e.text ++ found.1, found.2) := by
  have hliteral : '\n' ∉ e.literal := by
    intro hmem
    exact hline (List.mem_append_right _ (by simp [hmem]))
  have hnext := cutWhere?_nextLiteral e.spells hliteral (fun _ => quiet_of_not_hidesWhere h) more
  simp only [Equation.text, List.append_assoc, List.cons_append]
  rw [cutWhere?_name e.isName, hnext, Option.map_map]
  rfl

/-- An equation that hides a `WHERE` is cut in the middle of its literal. -/
theorem cutWhere?_hidesWhere {e : Equation} {more : List Char} (h : HidesWhere e)
    (hline : '\n' ∉ e.text ++ more) :
    ∃ front back, cutWhere? (e.text ++ more) = some (front, some back) ∧
      ∃ message, readAssignments front = .error (.parse message) := by
  obtain ⟨name, literal, value, hname, hspells⟩ := e
  obtain ⟨text, rfl, hholds⟩ := h
  cases hspells with
  | quoted body hbody =>
      rw [String.toList_ofList] at hholds
      simp only [Equation.text, List.append_assoc, List.cons_append] at hline ⊢
      have hfree : '\n' ∉ '\x27' :: body ++ '\x27' :: more := by
        intro hmem
        refine hline (List.mem_append_right _ ?_)
        simpa using hmem
      obtain ⟨front, back, hfront, hcut⟩ :=
        cutWhere?_loudLiteral (holdsWhere_iff.mp hholds) hfree
      have hopen : '\x27' ∉ front := fun hmem => hbody (hfront.subset hmem)
      refine ⟨name ++ ' ' :: '=' :: ' ' :: '\x27' :: front, back, ?_,
        readAssignments_unclosed hname allBlank_space allBlank_space hopen⟩
      simp only [List.append_assoc, List.cons_append] at hcut
      rw [cutWhere?_name hname, hcut]
      rfl

/-- Some text among assignments is taken for the `WHERE` of a condition. -/
def Misread (first : Equation) (others : List Equation) : Prop :=
  (∃ e ∈ first :: others, HidesWhere e) ∨ ∃ e ∈ others, IsWhere e.name

instance (first : Equation) (others : List Equation) : Decidable (Misread first others) :=
  inferInstanceAs (Decidable (_ ∨ _))

/-- Assignments are misread at the first, at the name of the second, or later on. -/
theorem misread_cons_iff {first next : Equation} {others : List Equation} :
    Misread first (next :: others) ↔
      HidesWhere first ∨ IsWhere next.name ∨ Misread next others := by
  simp only [Misread, List.exists_mem_cons_iff]
  rw [or_assoc]
  exact or_congr_right or_left_comm

variable {first : Equation} {others : List Equation} {tail : List Char}

/-- Assignments begin with a name and an equals sign. -/
theorem assignmentsText_append (first : Equation) (others : List Equation) (tail : List Char) :
    ∃ more, assignmentsText first others ++ tail = first.name ++ ' ' :: '=' :: more := by
  refine ⟨' ' :: (first.literal ++ (others.flatMap fun e => ',' :: ' ' :: e.text) ++ tail), ?_⟩
  simp [assignmentsText, Equation.text]

/-- The cut is made behind the assignments. -/
theorem cutWhere?_assignmentsText {condition : Option (List Char)}
    (hread : ¬ Misread first others) (hline : '\n' ∉ assignmentsText first others)
    (htail : optionalWhere? tail = some condition) :
    cutWhere? (assignmentsText first others ++ tail) =
      some (assignmentsText first others, condition) := by
  induction others generalizing first with
  | nil =>
      have hquiet : ¬ HidesWhere first := fun h => hread (.inl ⟨first, List.mem_cons_self, h⟩)
      have hliteral : '\n' ∉ first.literal := by
        intro hmem
        exact hline (by simp [assignmentsText, Equation.text, hmem])
      have hlast := cutWhere?_lastLiteral first.spells hliteral
        (fun _ => quiet_of_not_hidesWhere hquiet) htail
      simp only [assignmentsText, List.flatMap_nil, List.append_nil, Equation.text,
        List.append_assoc, List.cons_append]
      rw [cutWhere?_name first.isName, hlast]
      rfl
  | cons next others ih =>
      obtain ⟨hquiet, hothers⟩ := not_or.mp (mt misread_cons_iff.mpr hread)
      obtain ⟨hname, hnext⟩ := not_or.mp hothers
      rw [assignmentsText_cons] at hline ⊢
      have hfirst : '\n' ∉ first.text := fun hmem => hline (List.mem_append_left _ hmem)
      have hrest : '\n' ∉ assignmentsText next others := by
        intro hmem
        exact hline (List.mem_append_right _ (by simp [hmem]))
      obtain ⟨more, hmore⟩ := assignmentsText_append next others tail
      have hcut := ih hnext hrest
      rw [hmore] at hcut
      rw [List.append_assoc, List.cons_append, List.cons_append, hmore,
        cutWhere?_text hquiet hfirst, cutWhere?_nextName next.isName hname, hcut]
      rfl

/-- If the cut is made too early, then the assignments in front of it or the condition behind it
cannot be read. -/
theorem cutWhere?_misread (hread : Misread first others)
    (hline : '\n' ∉ assignmentsText first others ++ tail) :
    ∃ front back, cutWhere? (assignmentsText first others ++ tail) = some (front, some back) ∧
      ((∃ message, readAssignments front = .error (.parse message)) ∨
        ∃ rest, back = '=' :: rest) := by
  induction others generalizing first with
  | nil =>
      have hhides : HidesWhere first := by simpa [Misread] using hread
      simp only [assignmentsText, List.flatMap_nil, List.append_nil] at hline ⊢
      obtain ⟨front, back, hcut, hmessage⟩ := cutWhere?_hidesWhere hhides hline
      exact ⟨front, back, hcut, .inl hmessage⟩
  | cons next others ih =>
      rw [assignmentsText_cons, List.append_assoc] at hline ⊢
      by_cases hhides : HidesWhere first
      · obtain ⟨front, back, hcut, hmessage⟩ := cutWhere?_hidesWhere hhides hline
        exact ⟨front, back, hcut, .inl hmessage⟩
      · have hfirst : '\n' ∉ first.text := fun hmem => hline (List.mem_append_left _ hmem)
        have hrest : '\n' ∉ assignmentsText next others ++ tail := by
          intro hmem
          exact hline (List.mem_append_right _ (by simpa using hmem))
        obtain ⟨more, hmore⟩ := assignmentsText_append next others tail
        rw [List.cons_append, List.cons_append, hmore, cutWhere?_text hhides hfirst]
        rw [hmore] at hrest
        by_cases hwhere : IsWhere next.name
        · have hfree : '\n' ∉ more := by
            intro hmem
            exact hrest (List.mem_append_right _ (by simp [hmem]))
          rw [cutWhere?_whereName next.isName hwhere hfree]
          exact ⟨_, _, rfl, .inr ⟨more, rfl⟩⟩
        · have hnext : Misread next others :=
            ((misread_cons_iff.mp hread).resolve_left hhides).resolve_left hwhere
          obtain ⟨front, back, hcut, hfault⟩ := ih hnext (hmore ▸ hrest)
          rw [hmore] at hcut
          rw [cutWhere?_nextName next.isName hwhere, hcut]
          refine ⟨_, back, rfl, hfault.imp_left (Exists.imp fun message hmessage => ?_)⟩
          -- What is read after the first comma is the part that cannot be read.
          show readAssignments (first.text ++ ',' :: ([' '] ++ front)) = _
          rw [← first.spaced_plain, first.readAssignments_cons,
            readAssignments_append allBlank_space, hmessage]
          rfl

end Memory.Statement

end DocumentClient
