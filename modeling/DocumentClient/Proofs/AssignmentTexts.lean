import DocumentClient.Memory.Assignment
import DocumentClient.Proofs.Cutting
import DocumentClient.Proofs.Decimals
import DocumentClient.Proofs.ScriptLines

/-!
# Assignments as they are written

`Spells text value` lists the ways to write a literal: a word in any ASCII case, a decimal integer,
a text in single quotes. An `Equation` is a name and such a literal, and `Gaps` are the blanks
around them. An equation is read back in front of a comma (`readAssignments_cons`) and at the end of
the text (`readAssignments_single`), whatever stands between its quotes. A quoted literal that is
cut off before its closing quote is never read (`readAssignments_unclosed`).
-/

namespace DocumentClient

namespace Text

/-! ## Blanks -/

/-- The text holds nothing but blanks. -/
def AllBlank (text : List Char) : Prop :=
  ∀ c ∈ text, isBlank c = true

variable {blanks text : List Char}

/-- The space is blank. -/
theorem isBlank_space : isBlank ' ' = true := rfl

/-- The empty text holds nothing but blanks. -/
theorem allBlank_nil : AllBlank [] :=
  fun _ h => nomatch h

/-- So does a space. -/
theorem allBlank_space : AllBlank [' '] :=
  fun _ h => List.mem_singleton.mp h ▸ isBlank_space

/-- The code points of the blanks. -/
def blankPoints : List Nat :=
  [0x9, 0xA, 0xB, 0xC, 0xD, 0x20, 0x85, 0xA0, 0x1680, 0x2000, 0x2001, 0x2002, 0x2003, 0x2004,
    0x2005, 0x2006, 0x2007, 0x2008, 0x2009, 0x200A, 0x2028, 0x2029, 0x202F, 0x205F, 0x3000]

/-- There are no other blanks than those in the list. -/
theorem toNat_mem_blankPoints {c : Char} (h : isBlank c = true) : c.toNat ∈ blankPoints := by
  simp only [isBlank, Bool.or_eq_true, Bool.and_eq_true, decide_eq_true_eq, beq_iff_eq] at h
  simp only [blankPoints, List.mem_cons, List.not_mem_nil, or_false]
  omega

/-- A text of blanks holds no other character. -/
theorem AllBlank.not_mem (h : AllBlank blanks) {c : Char} (hc : isBlank c = false) :
    c ∉ blanks :=
  fun hmem => absurd (h c hmem) (by simp [hc])

/-- Blanks at the start of a text are trimmed together with those after them. -/
theorem AllBlank.trimStart_append (h : AllBlank blanks) (text : List Char) :
    trimStart (blanks ++ text) = trimStart text :=
  List.dropWhile_append_of_pos h

/-- Blanks at the end of a text are trimmed together with those before them. -/
theorem AllBlank.trimEnd_append (h : AllBlank blanks) (text : List Char) :
    trimEnd (text ++ blanks) = trimEnd text := by
  have hreverse : ∀ c ∈ blanks.reverse, isBlank c = true := by
    intro c hc
    exact h c (List.mem_reverse.mp hc)
  rw [trimEnd, trimEnd, List.reverse_append, List.dropWhile_append_of_pos hreverse]

/-- Blanks around a text are trimmed. -/
theorem trim_surrounded {before after : List Char} (hbefore : AllBlank before)
    (hafter : AllBlank after) (text : List Char) : trim (before ++ text ++ after) = trim text := by
  rw [trim, List.append_assoc, hbefore.trimStart_append, ← trimStart_trimEnd,
    hafter.trimEnd_append, trimStart_trimEnd, trim]

/-- How a text ends is decided by its last part that is not empty. -/
theorem endsBlank_append (front : List Char) (hne : text ≠ []) :
    endsBlank (front ++ text) = endsBlank text := by
  rw [endsBlank, endsBlank, List.getLast?_append_of_ne_nil _ hne]

/-- A text without blanks is not changed by trimming. -/
theorem trim_eq_self (h : ∀ c ∈ text, isBlank c = false) : trim text = text := by
  have hend : trimEnd text = text := by
    rw [trimEnd_eq_self_iff, endsBlank]
    cases hlast : text.getLast? with
    | none => rfl
    | some c => exact h c (List.mem_of_getLast? hlast)
  rw [trim, ← trimStart_trimEnd, hend]
  cases text with
  | nil => rfl
  | cons c text => rw [trimStart_cons, h c List.mem_cons_self]; rfl

/-! ## Names -/

/-- The text is a name: one or more word characters. -/
structure IsName (text : List Char) : Prop where
  ne_nil : text ≠ []
  all_word : ∀ c ∈ text, isWord c = true

instance (text : List Char) : Decidable (IsName text) :=
  decidable_of_iff (text ≠ [] ∧ text.all Text.isWord = true)
    ⟨fun h => ⟨h.1, List.all_eq_true.mp h.2⟩, fun h => ⟨h.ne_nil, List.all_eq_true.mpr h.all_word⟩⟩

/-- No blank stands in a word. -/
theorem not_isWord_of_isBlank {c : Char} (h : isBlank c = true) : isWord c = false := by
  have hpoints : ∀ point ∈ blankPoints,
      (wordRanges.any fun range => range.1 ≤ point && point ≤ range.2) = false := by
    decide +kernel
  exact hpoints c.toNat (toNat_mem_blankPoints h)

/-- The equals sign stands in no word. -/
theorem isWord_equals : isWord '=' = false := by decide +kernel

/-- What stands in a word is not blank. -/
theorem isBlank_of_isWord {c : Char} (h : isWord c = true) : isBlank c = false := by
  refine Bool.eq_false_iff.mpr fun hblank => ?_
  rw [not_isWord_of_isBlank hblank] at h
  exact absurd h Bool.false_ne_true

/-- A name holds no blank. -/
theorem IsName.not_blank (h : IsName text) : ∀ c ∈ text, isBlank c = false :=
  fun c hc => isBlank_of_isWord (h.all_word c hc)

/-- No blank stands in front of a name. -/
theorem IsName.trimStart_append (h : IsName text) (tail : List Char) :
    trimStart (text ++ tail) = text ++ tail :=
  trimStart_word_append h.ne_nil h.not_blank tail

/-- A name holds no character that may not stand in a word. -/
theorem IsName.not_mem (h : IsName text) {c : Char} (hc : isWord c = false) : c ∉ text :=
  fun hmem => absurd (h.all_word c hmem) (by simp [hc])

/-- A name is read up to the first character that may not stand in it. -/
theorem readName?_append (h : IsName text) {rest : List Char}
    (hrest : ∀ c ∈ rest.head?, isWord c = false) :
    readName? (text ++ rest) = some (text, rest) := by
  have hstop : rest.takeWhile isWord = [] ∧ rest.dropWhile isWord = rest := by
    cases rest with
    | nil => exact ⟨rfl, rfl⟩
    | cons c rest => simp [hrest c rfl]
  rw [readName?, List.takeWhile_append_of_pos h.all_word, List.dropWhile_append_of_pos h.all_word,
    hstop.1, hstop.2, List.append_nil]
  simp [h.ne_nil]

/-! ## Integers -/

/-- `IsDecimal text n` says that the text writes the integer in decimal digits, with or without a
sign. -/
inductive IsDecimal : List Char → Int → Prop where
  | plain (digits : List Char) (hne : digits ≠ []) (h : ∀ c ∈ digits, c.isDigit = true) :
      IsDecimal digits (digitsValue digits)
  | plus (digits : List Char) (hne : digits ≠ []) (h : ∀ c ∈ digits, c.isDigit = true) :
      IsDecimal ('+' :: digits) (digitsValue digits)
  | minus (digits : List Char) (hne : digits ≠ []) (h : ∀ c ∈ digits, c.isDigit = true) :
      IsDecimal ('-' :: digits) (-digitsValue digits)

/-- Digits are read on from the value before them, from left to right. -/
theorem readMoreDigits?_of_isDigit {digits : List Char} (h : ∀ c ∈ digits, c.isDigit = true)
    (value : Nat) : readMoreDigits? value digits =
      some (digits.foldl (fun value c => 10 * value + (c.toNat - 48)) value) := by
  induction digits generalizing value with
  | nil => rfl
  | cons c digits ih =>
      obtain ⟨hc, hdigits⟩ := List.forall_mem_cons.mp h
      have hrange : '0' ≤ c ∧ c ≤ '9' := by
        simp only [Char.isDigit, Bool.and_eq_true, decide_eq_true_eq] at hc
        exact hc
      have hvalue : digitValue? c = some (c.toNat - 48) := if_pos hrange
      simp only [readMoreDigits?, hvalue, List.foldl_cons, ih hdigits]

/-- A row of digits is read as its value. -/
theorem readDigits?_of_isDigit {digits : List Char} (hne : digits ≠ [])
    (h : ∀ c ∈ digits, c.isDigit = true) : readDigits? digits = some (digitsValue digits) := by
  cases digits with
  | nil => exact absurd rfl hne
  | cons c digits => exact readMoreDigits?_of_isDigit h 0

/-- A written integer is read back. -/
theorem readInteger?_of_isDecimal {n : Int} (h : IsDecimal text n) :
    readInteger? text = some n := by
  cases h with
  | plus digits hne h =>
      rw [readInteger?, readDigits?_of_isDigit hne h]
      rfl
  | minus digits hne h =>
      rw [readInteger?, readDigits?_of_isDigit hne h]
      rfl
  | plain digits hne h =>
      have hplus : '+' ∉ text := fun hmem => absurd (h _ hmem) (by decide)
      have hminus : '-' ∉ text := fun hmem => absurd (h _ hmem) (by decide)
      rw [readInteger?, readDigits?_of_isDigit hne h]
      · rfl
      · rintro rest rfl
        exact hplus List.mem_cons_self
      · rintro rest rfl
        exact hminus List.mem_cons_self

/-- A decimal integer in range is read as the word of its value. -/
theorem readInt64?_of_isDecimal {word : Int64} (h : IsDecimal text word.toInt) :
    readInt64? text = some word := by
  have hlow := word.le_toInt
  have hhigh := word.toInt_lt
  rw [readInt64?, readInteger?_of_isDecimal h, Option.bind_some, toInt64?, if_pos (by omega),
    Int64.ofInt_toInt]

/-- A decimal integer holds a digit. -/
theorem IsDecimal.exists_digit {n : Int} (h : IsDecimal text n) :
    ∃ c ∈ text, c.isDigit = true := by
  have hfirst : ∀ digits : List Char, digits ≠ [] → (∀ c ∈ digits, c.isDigit = true) →
      ∃ c ∈ digits, c.isDigit = true := by
    intro digits hne h
    obtain ⟨c, hc⟩ := List.exists_mem_of_ne_nil digits hne
    exact ⟨c, hc, h c hc⟩
  cases h with
  | plain digits hne h => exact hfirst text hne h
  | plus digits hne h =>
      obtain ⟨c, hc, hdigit⟩ := hfirst digits hne h
      exact ⟨c, List.mem_cons_of_mem _ hc, hdigit⟩
  | minus digits hne h =>
      obtain ⟨c, hc, hdigit⟩ := hfirst digits hne h
      exact ⟨c, List.mem_cons_of_mem _ hc, hdigit⟩

end Text

namespace Memory

open Text

/-! ## Literals -/

/-- `Spells text value` says that the text is a literal for the value. -/
inductive Spells : List Char → Value → Prop where
  | null (word : List Char) (h : word.map lowerAscii = "null".toList) : Spells word .null
  | bool (word : List Char) (b : Bool) (h : word.map lowerAscii = (toString b).toList) :
      Spells word (.bool b)
  | integer (text : List Char) (n : Int64) (h : IsDecimal text n.toInt) : Spells text (.int64 n)
  | quoted (body : List Char) (h : '\x27' ∉ body) :
      Spells ('\x27' :: body ++ ['\x27']) (.string (String.ofList body))

/-- Whether a character may stand in a literal without quotes. -/
def isPlain (c : Char) : Bool :=
  isWord c || c == '+' || c == '-'

/-- The marks that separate the parts of assignments. -/
def separators : List Char :=
  ['=', ',', '\x27']

/-- No separator is a part of a literal without quotes. -/
theorem isPlain_of_separator : ∀ c ∈ separators, isPlain c = false := by
  rw [separators, List.forall_mem_cons, List.forall_mem_cons, List.forall_mem_singleton]
  exact ⟨by decide +kernel, by decide +kernel, by decide +kernel⟩

/-- Digits need no quotes. -/
theorem isPlain_of_isDigit {c : Char} (h : c.isDigit = true) : isPlain c = true := by
  simp only [Char.isDigit, Bool.and_eq_true, decide_eq_true_eq] at h
  have hword : isWord c = true :=
    List.any_eq_true.mpr ⟨(0x30, 0x39), by decide, by simpa using ⟨h.1, h.2⟩⟩
  simp [isPlain, hword]

/-- A letter needs no quotes if its small letter needs none. -/
theorem isPlain_of_lowerAscii {c : Char} (h : isPlain (lowerAscii c) = true) :
    isPlain c = true := by
  unfold lowerAscii at h
  split at h
  · next hcapital =>
      have hword : isWord c = true :=
        List.any_eq_true.mpr ⟨(0x41, 0x5A), by decide, by simpa using ⟨hcapital.1, hcapital.2⟩⟩
      simp [isPlain, hword]
  · exact h

/-- What needs no quotes is not blank. -/
theorem isBlank_of_isPlain {c : Char} (h : isPlain c = true) : isBlank c = false := by
  simp only [isPlain, Bool.or_eq_true, beq_iff_eq] at h
  rcases h with (h | rfl) | rfl
  · exact isBlank_of_isWord h
  · decide
  · decide

/-- The text of a literal without quotes. -/
structure IsPlain (text : List Char) : Prop where
  ne_nil : text ≠ []
  all_plain : ∀ c ∈ text, isPlain c = true

section

variable {text : List Char} {value : Value}

/-- A literal without quotes holds nothing that needs them. -/
theorem IsPlain.not_mem (h : IsPlain text) {c : Char} (hc : isPlain c = false) : c ∉ text :=
  fun hmem => absurd (h.all_plain c hmem) (by simp [hc])

/-- So it holds no blank. -/
theorem IsPlain.not_blank (h : IsPlain text) : ∀ c ∈ text, isBlank c = false :=
  fun c hc => isBlank_of_isPlain (h.all_plain c hc)

/-- A word is written without quotes in any case of its letters. -/
theorem isPlain_of_map_lowerAscii {word : List Char} (h : text.map lowerAscii = word)
    (hne : word ≠ []) (hword : word.all isPlain = true) : IsPlain text where
  ne_nil := by
    rintro rfl
    exact hne h.symm
  all_plain c hc :=
    isPlain_of_lowerAscii (List.all_eq_true.mp hword _ (h ▸ List.mem_map_of_mem hc))

/-- A decimal integer is written without quotes. -/
theorem isPlain_of_isDecimal {n : Int} (h : IsDecimal text n) : IsPlain text := by
  cases h with
  | plain digits hne h => exact ⟨hne, fun c hc => isPlain_of_isDigit (h c hc)⟩
  | plus digits hne h =>
      refine ⟨List.cons_ne_nil _ _, List.forall_mem_cons.mpr ⟨by simp [isPlain], ?_⟩⟩
      exact fun c hc => isPlain_of_isDigit (h c hc)
  | minus digits hne h =>
      refine ⟨List.cons_ne_nil _ _, List.forall_mem_cons.mpr ⟨by simp [isPlain], ?_⟩⟩
      exact fun c hc => isPlain_of_isDigit (h c hc)

/-- Only a text value is written in quotes. -/
theorem Spells.isPlain (h : Spells text value) (hvalue : value.asString? = none) :
    IsPlain text := by
  cases h with
  | null _ h => exact isPlain_of_map_lowerAscii h (by decide) (by decide +kernel)
  | bool _ b h =>
      refine isPlain_of_map_lowerAscii h ?_ ?_
      · cases b <;> decide
      · cases b <;> decide +kernel
  | integer _ n h => exact isPlain_of_isDecimal h
  | quoted body h => exact nomatch hvalue

/-- A literal is a text in quotes, or it is written without quotes. -/
theorem Spells.quoted_or_plain (h : Spells text value) :
    (∃ body, text = '\x27' :: body ++ ['\x27'] ∧ '\x27' ∉ body ∧
      value = .string (String.ofList body)) ∨ IsPlain text := by
  cases h with
  | null _ h => exact .inr ((Spells.null _ h).isPlain rfl)
  | bool _ b h => exact .inr ((Spells.bool _ b h).isPlain rfl)
  | integer _ n h => exact .inr (isPlain_of_isDecimal h)
  | quoted body h => exact .inl ⟨body, rfl, h, rfl⟩

/-- No literal is empty. -/
theorem Spells.ne_nil (h : Spells text value) : text ≠ [] := by
  rcases h.quoted_or_plain with ⟨body, rfl, -, -⟩ | hplain
  · exact List.cons_ne_nil _ _
  · exact hplain.ne_nil

/-- A literal has no blanks at its ends, because the quotes are part of it. -/
theorem Spells.trim_eq (h : Spells text value) : trim text = text := by
  rcases h.quoted_or_plain with ⟨body, rfl, -, -⟩ | hplain
  · have hquote : isBlank '\x27' = false := by decide
    rw [List.cons_append, trim_cons hquote, ← List.cons_append, trimEnd_append_cons _ hquote]
    rfl
  · exact trim_eq_self hplain.not_blank

/-- Without a quote nothing is unquoted. -/
theorem unquote?_of_not_mem (h : '\x27' ∉ text) : unquote? text = none := by
  unfold unquote?
  split
  · exact absurd List.mem_cons_self h
  · rfl

/-- A digit is no letter. -/
theorem lowerAscii_of_isDigit {c : Char} (h : c.isDigit = true) : lowerAscii c = c := by
  refine if_neg fun hcapital => ?_
  simp only [Char.isDigit, Bool.and_eq_true, decide_eq_true_eq] at h
  exact absurd (UInt32.le_trans hcapital.1 h.2) (by decide)

/-- A text with a digit is none of the words. -/
theorem wordLiteral?_of_isDigit {c : Char} (hmem : c ∈ text) (hc : c.isDigit = true) :
    wordLiteral? text = none := by
  have hword : ∀ word : String, word.toList.any Char.isDigit = false →
      String.ofList (text.map lowerAscii) ≠ word := by
    rintro word hword rfl
    rw [String.toList_ofList, List.any_map, List.any_eq_false] at hword
    exact hword c hmem (by simpa [lowerAscii_of_isDigit hc] using hc)
  rw [wordLiteral?, if_neg (hword _ (by decide)), if_neg (hword _ (by decide)),
    if_neg (hword _ (by decide))]

/-- A literal is read as the value that it spells. -/
theorem literal?_of_spells (h : Spells text value) : literal? text = some value := by
  have hunquoted : ∀ {text : List Char}, IsPlain text → unquote? text = none := by
    intro text hplain
    exact unquote?_of_not_mem (hplain.not_mem (isPlain_of_separator _ (by decide)))
  cases h with
  | null _ h =>
      have hword : String.ofList (text.map lowerAscii) = "null" := by rw [h, String.ofList_toList]
      rw [literal?, hunquoted ((Spells.null _ h).isPlain rfl)]
      simp only [wordLiteral?, hword, if_true]
  | bool _ b h =>
      have hword : String.ofList (text.map lowerAscii) = toString b := by
        rw [h, String.ofList_toList]
      rw [literal?, hunquoted ((Spells.bool _ b h).isPlain rfl)]
      simp only [wordLiteral?, hword]
      cases b <;> rfl
  | integer _ n h =>
      obtain ⟨c, hc, hdigit⟩ := h.exists_digit
      rw [literal?, hunquoted (isPlain_of_isDecimal h)]
      simp only [wordLiteral?_of_isDigit hc hdigit, readInt64?_of_isDecimal h]
  | quoted body h =>
      have hbody : unquote? ('\x27' :: body ++ ['\x27']) = some body := by
        simp [unquote?]
      rw [literal?, hbody]

/-- A literal is read with any blanks around it. -/
theorem readLiteral_of_spells (h : Spells text value) {before after : List Char}
    (hbefore : AllBlank before) (hafter : AllBlank after) :
    readLiteral (before ++ text ++ after) = .ok value := by
  simp only [readLiteral, trim_surrounded hbefore hafter, h.trim_eq, literal?_of_spells h]

/-- A literal without its closing quote is not read. -/
theorem readLiteral_unclosed {before body : List Char} (hbefore : AllBlank before)
    (hbody : '\x27' ∉ body) :
    ∃ message, readLiteral (before ++ '\x27' :: body) = .error (.parse message) := by
  have htrim : trim (before ++ '\x27' :: body) = '\x27' :: trimEnd body := by
    have hall := trim_surrounded hbefore allBlank_nil ('\x27' :: body)
    rw [List.append_nil] at hall
    rw [hall, trim_cons (IsVisible.not_blank (by decide))]
    exact trimEnd_append_cons [] (IsVisible.not_blank (by decide)) body
  have hnone : literal? ('\x27' :: trimEnd body) = none := by
    have hrest : '\x27' ∉ trimEnd body := not_mem_trimEnd hbody
    have hquoted : unquote? ('\x27' :: trimEnd body) = none := by
      refine if_neg fun hlast => ?_
      exact hrest (List.mem_of_getLast? hlast)
    have hword : wordLiteral? ('\x27' :: trimEnd body) = none := by
      have hne : ∀ word : String, word.toList.head? ≠ some '\x27' →
          String.ofList (('\x27' :: trimEnd body).map lowerAscii) ≠ word := by
        rintro word hhead rfl
        rw [String.toList_ofList] at hhead
        exact hhead rfl
      rw [wordLiteral?, if_neg (hne _ (by decide)), if_neg (hne _ (by decide)),
        if_neg (hne _ (by decide))]
    have hinteger : readInt64? ('\x27' :: trimEnd body) = none := rfl
    have hdouble : readDouble? ('\x27' :: trimEnd body) = none := rfl
    rw [literal?, hquoted]
    simp only [hword, hinteger, hdouble, Option.map_none]
  refine ⟨"Invalid literal '" ++ String.ofList ('\x27' :: trimEnd body) ++ "'", ?_⟩
  simp only [readLiteral, htrim, hnone]

/-! ## Equations -/

/-- A name and a literal, and the value that it is for. -/
structure Equation where
  name : List Char
  literal : List Char
  value : Value
  isName : IsName name
  spells : Spells literal value

/-- The blanks around the parts of an equation. -/
structure Gaps where
  beforeName : List Char
  afterName : List Char
  beforeLiteral : List Char
  afterLiteral : List Char
  beforeName_blank : AllBlank beforeName
  afterName_blank : AllBlank afterName
  beforeLiteral_blank : AllBlank beforeLiteral
  afterLiteral_blank : AllBlank afterLiteral

namespace Equation

/-- The assignment that an equation stands for. -/
def assignment (e : Equation) : Assignment :=
  (String.ofList e.name, e.value)

/-- An equation from its name to its literal, and the blanks between them. -/
def core (e : Equation) (g : Gaps) : List Char :=
  e.name ++ (g.afterName ++ '=' :: (g.beforeLiteral ++ e.literal))

/-- An equation with blanks. -/
def spaced (e : Equation) (g : Gaps) : List Char :=
  g.beforeName ++ e.core g ++ g.afterLiteral

end Equation

variable {tail rest : List Char}

/-- The text of a literal ends at a comma or at the end of the text. -/
inductive LiteralEnd : List Char → List Char → Prop where
  | comma (rest : List Char) : LiteralEnd (',' :: rest) rest
  | last : LiteralEnd [] []

/-- A text that starts with something else than a quote holds no quoted literal at its start. -/
theorem cutQuoted?_of_ne {c : Char} (htext : trimStart text = c :: rest) (hc : c ≠ '\x27') :
    cutQuoted? text = none := by
  simp only [cutQuoted?, htext]
  split
  · next hquote => exact absurd (List.cons.inj hquote).1 hc
  · rfl

/-- A literal in quotes ends at the second quote, whatever stands between. -/
theorem cutQuoted?_quoted {body before after : List Char} (hbody : '\x27' ∉ body)
    (hbefore : AllBlank before) (hafter : AllBlank after) (hend : LiteralEnd tail rest) :
    cutQuoted? (before ++ ('\x27' :: body ++ ['\x27']) ++ after ++ tail) =
      some ('\x27' :: body ++ ['\x27'], rest) := by
  have htext : trimStart (before ++ ('\x27' :: body ++ ['\x27']) ++ after ++ tail) =
      '\x27' :: (body ++ '\x27' :: (after ++ tail)) := by
    simp only [List.append_assoc, hbefore.trimStart_append, List.cons_append, List.nil_append]
    exact IsVisible.trimStart_cons (by decide) _
  simp only [cutQuoted?, htext, cutAt_append_cons hbody, hafter.trimStart_append]
  cases hend with
  | comma =>
      simp [IsVisible.trimStart_cons (c := ',') (by decide)]
  | last => rfl

/-- A text without commas is cut off at the comma behind it. -/
theorem cutPlain?_of_not_mem (hne : text ≠ []) (h : ',' ∉ text) (hend : LiteralEnd tail rest) :
    cutPlain? (text ++ tail) = some (text, rest) := by
  cases hend with
  | comma =>
      rw [cutPlain?, cutAt_append_cons h]
      cases text with
      | nil => exact absurd rfl hne
      | cons c text => rfl
  | last =>
      rw [List.append_nil, cutPlain?, cutAt_eq_none_iff.mpr h]
      simp [hne]

/-- A literal is cut off with the blanks around it, whatever it holds. -/
theorem cutLiteral?_of_spells (h : Spells text value) {before after : List Char}
    (hbefore : AllBlank before) (hafter : AllBlank after) (hend : LiteralEnd tail rest) :
    ∃ piece, cutLiteral? (before ++ text ++ after ++ tail) = some (piece, rest) ∧
      readLiteral piece = .ok value := by
  rcases h.quoted_or_plain with ⟨body, rfl, hbody, -⟩ | hplain
  · have hvalue := readLiteral_of_spells h allBlank_nil allBlank_nil
    rw [List.nil_append, List.append_nil] at hvalue
    refine ⟨_, ?_, hvalue⟩
    rw [cutLiteral?, cutQuoted?_quoted hbody hbefore hafter hend, Option.some_or]
  · obtain ⟨c, word, rfl⟩ := List.exists_cons_of_ne_nil hplain.ne_nil
    have hquoted : cutQuoted? (before ++ c :: word ++ after ++ tail) = none := by
      have htext : trimStart (before ++ c :: word ++ after ++ tail) =
          c :: (word ++ after ++ tail) := by
        simp only [List.append_assoc, hbefore.trimStart_append, List.cons_append]
        rw [trimStart_cons, hplain.not_blank c List.mem_cons_self]
        rfl
      refine cutQuoted?_of_ne htext ?_
      rintro rfl
      exact hplain.not_mem (isPlain_of_separator _ (by decide)) List.mem_cons_self
    have hfree : ',' ∉ before ++ c :: word ++ after := by
      simp only [List.mem_append, not_or]
      exact ⟨⟨hbefore.not_mem (IsVisible.not_blank (by decide)),
          hplain.not_mem (isPlain_of_separator _ (by decide))⟩,
        hafter.not_mem (IsVisible.not_blank (by decide))⟩
    refine ⟨_, ?_, readLiteral_of_spells h hbefore hafter⟩
    rw [cutLiteral?, hquoted, Option.none_or, cutPlain?_of_not_mem (by simp) hfree hend]

/-- Of a literal without its closing quote a part is cut off that has none either. -/
theorem cutLiteral?_unclosed {before body : List Char} (hbefore : AllBlank before)
    (hbody : '\x27' ∉ body) :
    ∃ part rest, '\x27' ∉ part ∧
      cutLiteral? (before ++ '\x27' :: body) = some (before ++ '\x27' :: part, rest) := by
  have hquoted : cutQuoted? (before ++ '\x27' :: body) = none := by
    have htext : trimStart (before ++ '\x27' :: body) = '\x27' :: body := by
      rw [hbefore.trimStart_append, IsVisible.trimStart_cons (by decide)]
    simp only [cutQuoted?, htext, cutAt_eq_none_iff.mpr hbody]
  have hcut : ∃ part rest, '\x27' ∉ part ∧
      cutPlain? (before ++ '\x27' :: body) = some (before ++ '\x27' :: part, rest) := by
    have hcomma : ',' ∉ before ++ ['\x27'] := by
      simp only [List.mem_append, List.mem_singleton, not_or]
      exact ⟨hbefore.not_mem (by decide), by decide⟩
    have happend := cutAt_append hcomma body
    simp only [List.append_assoc, List.singleton_append] at happend
    cases hbodycut : cutAt ',' body with
    | none =>
        refine ⟨body, [], hbody, ?_⟩
        simp [cutPlain?, happend, hbodycut]
    | some parts =>
        obtain ⟨rfl, -⟩ := cutAt_eq_some_iff.mp hbodycut
        refine ⟨parts.1, parts.2, fun hmem => hbody (List.mem_append_left _ hmem), ?_⟩
        rw [cutPlain?, happend, hbodycut]
        cases before <;> rfl
  obtain ⟨part, rest, hpart, hplain⟩ := hcut
  exact ⟨part, rest, hpart, by rw [cutLiteral?, hquoted, Option.none_or, hplain]⟩

/-! ## Reading equations -/

/-- The name and the equals sign are taken off before the literal is looked at. -/
theorem cutAssignment?_name {name afterName : List Char} (hname : IsName name)
    (hafter : AllBlank afterName) (text : List Char) :
    cutAssignment? (name ++ (afterName ++ '=' :: text)) =
      (cutLiteral? text).map fun found => (name, found) := by
  have hread : readName? (name ++ (afterName ++ '=' :: text)) =
      some (name, afterName ++ '=' :: text) := by
    refine readName?_append hname ?_
    cases afterName with
    | nil => simpa using isWord_equals
    | cons c afterName => simpa using not_isWord_of_isBlank (hafter c List.mem_cons_self)
  have htrim : trimStart (afterName ++ '=' :: text) = '=' :: text := by
    rw [hafter.trimStart_append, IsVisible.trimStart_cons (by decide)]
  simp only [cutAssignment?, hread, htrim]

/-- The assignments after the first one are read from what follows its comma. -/
theorem assignmentsFrom_of_cut {name piece : List Char}
    (hcut : cutAssignment? text = some (name, piece, rest)) :
    assignmentsFrom text = (readLiteral piece).bind fun value =>
      (assignmentsFrom (trimStart rest)).map ((String.ofList name, value) :: ·) := by
  have hne : text ≠ [] := by
    rintro rfl
    exact absurd (cutAssignment?_length hcut) (Nat.not_lt_zero _)
  rw [assignmentsFrom, if_neg (by simpa using hne)]
  split
  · next hnone =>
      rw [hcut] at hnone
      cases hnone
  · next other others after hsome =>
      rw [hcut] at hsome
      obtain ⟨rfl, rfl, rfl⟩ : name = other ∧ piece = others ∧ rest = after := by
        simpa using hsome
      cases readLiteral piece with
      | error error => rfl
      | ok value => cases assignmentsFrom (trimStart rest) <;> rfl

namespace Equation

variable (e : Equation) (g : Gaps)

/-- The equation at the start of a text is read, and the rest is read on its own. -/
theorem assignmentsFrom_core {after : List Char} (hafter : AllBlank after)
    (hend : LiteralEnd tail rest) :
    assignmentsFrom (e.core g ++ after ++ tail) =
      (assignmentsFrom (trimStart rest)).map (e.assignment :: ·) := by
  obtain ⟨piece, hpiece, hvalue⟩ :=
    cutLiteral?_of_spells e.spells g.beforeLiteral_blank hafter hend
  have hcut : cutAssignment? (e.core g ++ after ++ tail) = some (e.name, piece, rest) := by
    have htext : e.core g ++ after ++ tail =
        e.name ++ (g.afterName ++ '=' :: (g.beforeLiteral ++ e.literal ++ after ++ tail)) := by
      simp only [core, List.append_assoc, List.cons_append]
    rw [htext, cutAssignment?_name e.isName g.afterName_blank, hpiece]
    rfl
  rw [assignmentsFrom_of_cut hcut, hvalue]
  rfl

/-- No blank stands in front of the name. -/
theorem trimStart_core (tail : List Char) : trimStart (e.core g ++ tail) = e.core g ++ tail := by
  rw [core, List.append_assoc, e.isName.trimStart_append]

/-- No blank stands behind the literal. -/
theorem trimEnd_core : trimEnd (e.core g) = e.core g := by
  have hliteral : endsBlank e.literal = false := by
    rw [← trimEnd_eq_self_iff, ← e.spells.trim_eq]
    exact List.rdropWhile_idempotent isBlank _
  rw [trimEnd_eq_self_iff, core, ← List.cons_append, ← List.append_assoc, ← List.append_assoc,
    endsBlank_append _ e.spells.ne_nil, hliteral]

/-- An equation is read in front of a comma, and the others are read from what follows it. -/
theorem readAssignments_cons (rest : List Char) :
    readAssignments (e.spaced g ++ ',' :: rest) =
      (readAssignments rest).map (e.assignment :: ·) := by
  have htrim : trim (e.spaced g ++ ',' :: rest) =
      e.core g ++ g.afterLiteral ++ ',' :: trimEnd rest := by
    simp only [trim, spaced, List.append_assoc, g.beforeName_blank.trimStart_append, trimStart_core]
    rw [← List.append_assoc, trimEnd_append_cons _ (IsVisible.not_blank (by decide)),
      List.append_assoc]
  rw [readAssignments, htrim, assignmentsFrom_core e g g.afterLiteral_blank (.comma _),
    trimStart_trimEnd]
  rfl

/-- An equation is read at the end of the text. -/
theorem readAssignments_single : readAssignments (e.spaced g) = .ok [e.assignment] := by
  have htrim : trim (e.spaced g) = e.core g := by
    have hstart := e.trimStart_core g []
    rw [List.append_nil] at hstart
    rw [spaced, trim_surrounded g.beforeName_blank g.afterLiteral_blank, trim, hstart, trimEnd_core]
  have hcore := assignmentsFrom_core e g allBlank_nil .last
  rw [List.append_nil, List.append_nil] at hcore
  rw [readAssignments, htrim, hcore, trimStart, List.dropWhile_nil, assignmentsFrom]
  rfl

end Equation

/-- Blanks in front of assignments are skipped. -/
theorem readAssignments_append {blanks : List Char} (h : AllBlank blanks) (text : List Char) :
    readAssignments (blanks ++ text) = readAssignments text := by
  have htrim := trim_surrounded h allBlank_nil text
  rw [List.append_nil] at htrim
  rw [readAssignments, htrim, readAssignments]

/-- An equation that is cut off in the middle of its quoted literal is not read. -/
theorem readAssignments_unclosed {name afterName beforeLiteral body : List Char}
    (hname : IsName name) (hafter : AllBlank afterName) (hbefore : AllBlank beforeLiteral)
    (hbody : '\x27' ∉ body) :
    ∃ message, readAssignments (name ++ (afterName ++ '=' :: (beforeLiteral ++ '\x27' :: body))) =
      .error (.parse message) := by
  obtain ⟨part, rest, hpart, hcut⟩ := cutLiteral?_unclosed hbefore
    (not_mem_trimEnd hbody)
  obtain ⟨message, hmessage⟩ := readLiteral_unclosed hbefore hpart
  have htrim : trim (name ++ (afterName ++ '=' :: (beforeLiteral ++ '\x27' :: body))) =
      name ++ (afterName ++ '=' :: (beforeLiteral ++ '\x27' :: trimEnd body)) := by
    have hend :=
      trimEnd_append_cons (name ++ (afterName ++ '=' :: beforeLiteral))
        (IsVisible.not_blank (c := '\x27') (by decide)) body
    simp only [List.append_assoc, List.cons_append] at hend
    rw [trim, hname.trimStart_append, hend]
  refine ⟨message, ?_⟩
  rw [readAssignments, htrim, assignmentsFrom_of_cut (by
    rw [cutAssignment?_name hname hafter, hcut, Option.map_some]), hmessage]
  rfl

/-- What starts with an equals sign is not read. -/
theorem readAssignments_equals (rest : List Char) :
    ∃ message, readAssignments ('=' :: rest) = .error (.parse message) := by
  have htrim : trim ('=' :: rest) = '=' :: trimEnd rest := by
    rw [trim_cons (IsVisible.not_blank (by decide))]
    exact trimEnd_append_cons [] (IsVisible.not_blank (by decide)) rest
  have hcut : cutAssignment? ('=' :: trimEnd rest) = none := by
    simp [cutAssignment?, readName?, isWord_equals]
  refine ⟨"Invalid assignment near '" ++ String.ofList ('=' :: trimEnd rest) ++ "'", ?_⟩
  rw [readAssignments, htrim, assignmentsFrom, if_neg (by simp)]
  split
  · rfl
  · next hsome =>
      rw [hcut] at hsome
      cases hsome

/-- A literal fails to be read with an error of parsing only. -/
theorem readLiteral_error {error : EngineError} (h : readLiteral text = .error error) :
    ∃ message, error = .parse message := by
  simp only [readLiteral] at h
  split at h
  · cases h
  · exact ⟨_, (Except.error.inj h).symm⟩

/-- Assignments that cannot be read are refused with a parse error. -/
theorem readAssignments_error {error : EngineError} (h : readAssignments text = .error error) :
    ∃ message, error = .parse message := by
  rw [readAssignments] at h
  generalize trim text = trimmed at h
  fun_induction assignmentsFrom trimmed with
  | case1 => cases h
  | case2 => exact ⟨_, (Except.error.inj h).symm⟩
  | case3 trimmed hne name literal rest hcut ih =>
      cases hvalue : readLiteral literal with
      | error fault =>
          rw [hvalue] at h
          obtain rfl := Except.error.inj h
          exact readLiteral_error hvalue
      | ok value =>
          cases hothers : assignmentsFrom (trimStart rest) with
          | error fault =>
              rw [hvalue, hothers] at h
              obtain rfl := Except.error.inj h
              exact ih hothers
          | ok others =>
              rw [hvalue, hothers] at h
              cases h

/-- A condition is read from a text of one assignment and from no other. -/
theorem readCondition_eq_ok_iff {condition : Assignment} :
    readCondition text = .ok condition ↔ readAssignments text = .ok [condition] := by
  constructor
  · intro h
    rw [readCondition] at h
    cases hread : readAssignments text with
    | error error =>
        rw [hread] at h
        cases h
    | ok assignments =>
        rw [hread] at h
        rcases assignments with _ | ⟨first, _ | ⟨second, others⟩⟩
        · cases h
        · cases h
          rfl
        · cases h
  · intro h
    rw [readCondition, h]
    rfl

end

/-! ## Single spaces -/

/-- A space on both sides of the equals sign. -/
def Gaps.plain : Gaps where
  beforeName := []
  afterName := [' ']
  beforeLiteral := [' ']
  afterLiteral := []
  beforeName_blank := allBlank_nil
  afterName_blank := allBlank_space
  beforeLiteral_blank := allBlank_space
  afterLiteral_blank := allBlank_nil

/-- The text `name = literal`. -/
def Equation.text (e : Equation) : List Char :=
  e.name ++ ' ' :: '=' :: ' ' :: e.literal

/-- With the plain gaps, an equation is written as its text. -/
theorem Equation.spaced_plain (e : Equation) : e.spaced .plain = e.text :=
  List.append_nil _

/-- The text `name = literal, name = literal, ...`. -/
def assignmentsText (first : Equation) (others : List Equation) : List Char :=
  first.text ++ others.flatMap fun e => ',' :: ' ' :: e.text

/-- Assignments are written with a comma and a space between them. -/
theorem assignmentsText_cons (first next : Equation) (others : List Equation) :
    assignmentsText first (next :: others) =
      first.text ++ ',' :: ' ' :: assignmentsText next others := by
  simp [assignmentsText]

/-- Assignments are read back in order. -/
theorem readAssignments_assignmentsText (first : Equation) (others : List Equation) :
    readAssignments (assignmentsText first others) =
      .ok ((first :: others).map Equation.assignment) := by
  induction others generalizing first with
  | nil =>
      rw [assignmentsText, List.flatMap_nil, List.append_nil, ← first.spaced_plain,
        first.readAssignments_single]
      rfl
  | cons next others ih =>
      rw [assignmentsText_cons, ← first.spaced_plain, first.readAssignments_cons]
      show (readAssignments ([' '] ++ assignmentsText next others)).map _ = _
      rw [readAssignments_append allBlank_space, ih]
      rfl

/-- A single equation is read back as a condition. -/
theorem readCondition_text (e : Equation) : readCondition e.text = .ok e.assignment := by
  rw [readCondition_eq_ok_iff, ← e.spaced_plain, e.readAssignments_single]

end Memory

end DocumentClient
