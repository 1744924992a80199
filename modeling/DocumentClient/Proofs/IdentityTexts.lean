import DocumentClient.Proofs.AssignmentTexts
import DocumentClient.Record.Identity

/-!
# Identities as they are written

An integer is read exactly if it is written in decimal digits, with or without a sign
(`readInteger?_eq_some_iff`), and a word of 32 or 64 bits exactly if the integer is also in its
range. `RecordId.IsText` is the written form of an identity. `RecordId.read_texts` says that the
display text of every identity is such a form and is read back, blanks around it or not, and that
nothing is read from any other text.
-/

namespace DocumentClient

namespace Text

variable {text : List Char}

/-! ## Integers read from texts -/

/-- A character with the value of a digit is a digit. -/
theorem isDigit_of_digitValue? {c : Char} (h : (digitValue? c).isSome = true) :
    c.isDigit = true := by
  rw [digitValue?] at h
  split at h
  · next hrange =>
      simp only [Char.isDigit, Bool.and_eq_true, decide_eq_true_eq]
      exact hrange
  · cases h

/-- Only digits are read. -/
theorem isDigit_of_readMoreDigits? {value n : Nat} (h : readMoreDigits? value text = some n) :
    ∀ c ∈ text, c.isDigit = true := by
  induction text generalizing value with
  | nil => exact List.forall_mem_nil _
  | cons c text ih =>
      rw [readMoreDigits?] at h
      split at h
      · next d hd =>
          exact List.forall_mem_cons.mpr ⟨isDigit_of_digitValue? (by rw [hd]; rfl), ih h⟩
      · cases h

/-- A number is read exactly from one or more digits. -/
theorem readDigits?_eq_some_iff {n : Nat} : readDigits? text = some n ↔
    text ≠ [] ∧ (∀ c ∈ text, c.isDigit = true) ∧ digitsValue text = n := by
  constructor
  · intro h
    cases text with
    | nil => cases h
    | cons c text =>
        have hdigits := isDigit_of_readMoreDigits? h
        rw [readDigits?_of_isDigit (List.cons_ne_nil c text) hdigits] at h
        exact ⟨List.cons_ne_nil c text, hdigits, Option.some.inj h⟩
  · rintro ⟨hne, hdigits, rfl⟩
    exact readDigits?_of_isDigit hne hdigits

/-- What is read as an integer is a decimal integer of that value. -/
theorem isDecimal_of_readInteger? {n : Int} (h : readInteger? text = some n) :
    IsDecimal text n := by
  rw [readInteger?.eq_def] at h
  split at h
  · obtain ⟨m, hm, rfl⟩ := Option.map_eq_some_iff.mp h
    obtain ⟨hne, hdigits, rfl⟩ := readDigits?_eq_some_iff.mp hm
    exact .plus _ hne hdigits
  · obtain ⟨m, hm, rfl⟩ := Option.map_eq_some_iff.mp h
    obtain ⟨k, hk, hcast⟩ := Option.bind_eq_some_iff.mp hm
    obtain ⟨hne, hdigits, rfl⟩ := readDigits?_eq_some_iff.mp hk
    obtain rfl := Option.some.inj hcast
    exact .minus _ hne hdigits
  · obtain ⟨m, hm, rfl⟩ := Option.map_eq_some_iff.mp h
    obtain ⟨hne, hdigits, rfl⟩ := readDigits?_eq_some_iff.mp hm
    exact .plain _ hne hdigits

/-- The reader of integers accepts exactly the decimal integers. -/
theorem readInteger?_eq_some_iff {n : Int} : readInteger? text = some n ↔ IsDecimal text n :=
  ⟨isDecimal_of_readInteger?, readInteger?_of_isDecimal⟩

/-- A word stands for an integer exactly if the integer is in its range. -/
theorem toInt32?_eq_some_iff {n : Int} {word : Int32} :
    toInt32? n = some word ↔ word.toInt = n := by
  have hlow := word.le_toInt
  have hhigh := word.toInt_lt
  rw [toInt32?]
  constructor
  · intro h
    split at h
    · next hrange =>
        obtain rfl := Option.some.inj h
        exact Int32.toInt_ofInt_of_le (by omega) (by omega)
    · cases h
  · rintro rfl
    rw [if_pos (by omega), Int32.ofInt_toInt]

/-- A number is turned into the word of its value, if there is one. -/
theorem toInt64?_eq_some_iff {n : Int} {word : Int64} :
    toInt64? n = some word ↔ word.toInt = n := by
  have hlow := word.le_toInt
  have hhigh := word.toInt_lt
  rw [toInt64?]
  constructor
  · intro h
    split at h
    · next hrange =>
        obtain rfl := Option.some.inj h
        exact Int64.toInt_ofInt_of_le (by omega) (by omega)
    · cases h
  · rintro rfl
    rw [if_pos (by omega), Int64.ofInt_toInt]

/-- With 32 bits, it accepts those in range. -/
theorem readInt32?_eq_some_iff {word : Int32} :
    readInt32? text = some word ↔ IsDecimal text word.toInt := by
  simp only [readInt32?, Option.bind_eq_some_iff, toInt32?_eq_some_iff, readInteger?_eq_some_iff,
    exists_eq_right']

/-- And so with 64 bits. -/
theorem readInt64?_eq_some_iff {word : Int64} :
    readInt64? text = some word ↔ IsDecimal text word.toInt := by
  simp only [readInt64?, Option.bind_eq_some_iff, toInt64?_eq_some_iff, readInteger?_eq_some_iff,
    exists_eq_right']

/-! ## Integers written as texts -/

/-- A number is written in digits. -/
theorem isDigit_of_mem_digits {n : Nat} : ∀ c ∈ digits n, c.isDigit = true :=
  fun _ hc => isDigit_of_digitValue? (digitValue?_of_mem_digits hc)

/-- The value of its digits is the number. -/
theorem digitsValue_digits (n : Nat) : digitsValue (digits n) = n :=
  (readDigits?_eq_some_iff.mp (readDigits?_digits n)).2.2

/-- Digits are taken off up to what follows, if that does not start with a digit. -/
theorem takeWhile_isDigit_append {number rest : List Char}
    (hnumber : ∀ c ∈ number, c.isDigit = true) (hrest : ∀ c ∈ rest.head?, c.isDigit = false) :
    (number ++ rest).takeWhile Char.isDigit = number := by
  have hstop : rest.takeWhile Char.isDigit = [] := by
    cases rest with
    | nil => rfl
    | cons c rest => simp [hrest c rfl]
  rw [List.takeWhile_append_of_pos hnumber, hstop, List.append_nil]

/-- Behind a number, what is no digit is left. -/
theorem dropWhile_isDigit_append {number rest : List Char}
    (hnumber : ∀ c ∈ number, c.isDigit = true) (hrest : ∀ c ∈ rest.head?, c.isDigit = false) :
    (number ++ rest).dropWhile Char.isDigit = rest := by
  rw [List.dropWhile_append_of_pos hnumber]
  cases rest with
  | nil => rfl
  | cons c rest => simp [hrest c rfl]

/-- An integer is written in decimal digits. -/
theorem isDecimal_integer (n : Int) : IsDecimal (integer n) n := by
  cases n with
  | ofNat n =>
      have h := IsDecimal.plain (digits n) (digits_ne_nil n) isDigit_of_mem_digits
      rwa [digitsValue_digits] at h
  | negSucc n =>
      have h := IsDecimal.minus (digits (n + 1)) (digits_ne_nil _) isDigit_of_mem_digits
      rwa [digitsValue_digits] at h

/-- A written integer holds digits and a sign, and nothing else. -/
theorem IsDecimal.mem {n : Int} (h : IsDecimal text n) :
    ∀ c ∈ text, c.isDigit = true ∨ c = '+' ∨ c = '-' := by
  cases h with
  | plain digits hne h => exact fun c hc => .inl (h c hc)
  | plus digits hne h => exact List.forall_mem_cons.mpr ⟨.inr (.inl rfl), fun c hc => .inl (h c hc)⟩
  | minus digits hne h =>
      exact List.forall_mem_cons.mpr ⟨.inr (.inr rfl), fun c hc => .inl (h c hc)⟩

/-- No decimal integer holds a colon. -/
theorem IsDecimal.colon_not_mem {n : Int} (h : IsDecimal text n) : ':' ∉ text :=
  fun hmem => absurd (h.mem ':' hmem) (by decide)

/-- No digit is blank. -/
theorem isBlank_of_isDigit {c : Char} (h : c.isDigit = true) : isBlank c = false :=
  Memory.isBlank_of_isPlain (Memory.isPlain_of_isDigit h)

/-- A decimal integer holds no blank. -/
theorem IsDecimal.not_blank {n : Int} (h : IsDecimal text n) : ∀ c ∈ text, isBlank c = false := by
  intro c hc
  rcases h.mem c hc with hdigit | rfl | rfl
  · exact isBlank_of_isDigit hdigit
  · rfl
  · rfl

end Text

namespace RecordId

open Text

/-- `IsText text rid` says that the text writes the identity: a hash mark, the cluster, a colon and
the position. -/
inductive IsText : List Char → RecordId → Prop where
  | intro (rid : RecordId) (cluster position : List Char)
      (hcluster : IsDecimal cluster rid.cluster.toInt)
      (hposition : IsDecimal position rid.position.toInt) :
      IsText ('#' :: cluster ++ ':' :: position) rid

variable {text : List Char} {rid : RecordId}

/-- An identity is written in a form in which it can be read. -/
theorem isText_text (rid : RecordId) : IsText rid.text rid :=
  .intro rid _ _ (isDecimal_integer _) (isDecimal_integer _)

/-- No form of an identity holds a blank. -/
theorem IsText.not_blank (h : IsText text rid) : ∀ c ∈ text, isBlank c = false := by
  obtain ⟨rid, cluster, position, hcluster, hposition⟩ := h
  rw [List.cons_append]
  refine List.forall_mem_cons.mpr ⟨rfl, List.forall_mem_append.mpr ⟨hcluster.not_blank, ?_⟩⟩
  exact List.forall_mem_cons.mpr ⟨rfl, hposition.not_blank⟩

/-- An identity is read exactly from its written forms. -/
theorem read?_eq_some_iff : read? text = some rid ↔ IsText text rid := by
  constructor
  · intro h
    rw [read?.eq_def] at h
    split at h
    · simp only [bind, pure, Option.bind_eq_some_iff, Option.some.injEq] at h
      obtain ⟨⟨cluster, position⟩, hcut, c, hc, p, hp, rfl⟩ := h
      obtain ⟨rfl, -⟩ := cutAt_eq_some_iff.mp hcut
      exact .intro ⟨c, p⟩ cluster position (readInt32?_eq_some_iff.mp hc)
        (readInt64?_eq_some_iff.mp hp)
    · cases h
  · rintro ⟨rid, cluster, position, hcluster, hposition⟩
    rw [List.cons_append, read?, cutAt_append_cons hcluster.colon_not_mem]
    simp only [bind, pure, Option.bind_some, readInt32?_eq_some_iff.mpr hcluster,
      readInt64?_eq_some_iff.mpr hposition]

/-- The reader accepts exactly the forms of identities, with any blanks around them. -/
theorem read_eq_ok_iff (text : String) :
    read text = .ok rid ↔ IsText (trim text.toList) rid := by
  rw [← read?_eq_some_iff, read]
  cases read? (trim text.toList) with
  | none => simp
  | some other => simp

/-- The display text of every identity is read back, with any blanks around it. An identity is read
exactly from the texts that are its written form between blanks, and every other text is a
configuration error. -/
theorem read_texts :
    (∀ (rid : RecordId) (before after : List Char), AllBlank before → AllBlank after →
      read (String.ofList (before ++ rid.text ++ after)) = .ok rid) ∧
    ∀ text : String,
      (∀ rid, read text = .ok rid ↔ IsText (trim text.toList) rid) ∧
      ((∀ rid, ¬ IsText (trim text.toList) rid) →
        read text = .error (.configuration ("Invalid record id: " ++ text))) := by
  constructor
  · intro rid before after hbefore hafter
    have hself := trim_eq_self (isText_text rid).not_blank
    rw [read_eq_ok_iff, String.toList_ofList, trim_surrounded hbefore hafter, hself]
    exact isText_text rid
  · intro text
    refine ⟨fun rid => read_eq_ok_iff text, fun hnone => ?_⟩
    rw [read]
    cases hread : read? (trim text.toList) with
    | none => rfl
    | some rid => exact absurd (read?_eq_some_iff.mp hread) (hnone rid)

/-- The identity at the low end of the clusters and the high end of the positions. -/
def outermost : RecordId :=
  ⟨-2147483648, 9223372036854775807⟩

/-- The identity at the ends of both ranges, as it is written. -/
theorem text_outermost : outermost.text = "#-2147483648:9223372036854775807".toList := by
  have hcluster : integer (-2147483648) = "-2147483648".toList := by
    show '-' :: digits 2147483648 = _
    simp [digits, digitChar]
  have hposition : integer 9223372036854775807 = "9223372036854775807".toList := by
    show digits 9223372036854775807 = _
    simp [digits, digitChar]
  show '#' :: integer (-2147483648) ++ ':' :: integer 9223372036854775807 = _
  rw [hcluster, hposition]
  rfl

/-- It is read back with blanks around it, and a blank within is an error. -/
theorem read_texts_outermost :
    AllBlank ['\u2003'] ∧ AllBlank ['\r', '\n'] ∧
      outermost.text = "#-2147483648:9223372036854775807".toList ∧
      read (String.ofList (['\u2003'] ++ outermost.text ++ ['\r', '\n'])) = .ok outermost ∧
      (∀ rid, ¬ IsText (trim "#1 :2".toList) rid) ∧
      read "#1 :2" = .error (.configuration "Invalid record id: #1 :2") := by
  have hbefore : AllBlank ['\u2003'] := List.forall_mem_singleton.mpr rfl
  have hafter : AllBlank ['\r', '\n'] :=
    List.forall_mem_cons.mpr ⟨rfl, List.forall_mem_singleton.mpr rfl⟩
  have hnone : ∀ rid, ¬ IsText (trim "#1 :2".toList) rid := by
    intro rid hrid
    have hread := read?_eq_some_iff.mpr hrid
    have h : read? (trim "#1 :2".toList) = none := by decide
    rw [h] at hread
    cases hread
  refine ⟨hbefore, hafter, text_outermost, ?_, hnone, ?_⟩
  · exact read_texts.1 outermost _ _ hbefore hafter
  · exact (read_texts.2 "#1 :2").2 hnone

end RecordId

end DocumentClient
