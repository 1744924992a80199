import DocumentClient.Json.Printer
import DocumentClient.Proofs.JsonDocuments

/-!
# Documents read back from their texts

The text of a document whose numbers are integers is read as the draft of that document
(`Draft.read?_text`), and a document that is sorted and not nested too deeply is read back from its
text (`read?_text`). Strings may hold any characters. A number is read to its last digit because
only a comma or a closing bracket can follow it (`Ends`), and the bound on the steps of the reader
is carried as two steps for each character.
-/

namespace DocumentClient

/-- No text of more than one digit starts with a zero. -/
theorem Text.tail_eq_nil_of_digits {n : Nat} {rest : List Char} (h : digits n = '0' :: rest) :
    rest = [] := by
  fun_induction digits n generalizing rest with
  | case1 n hn => exact (List.cons.inj h).2.symm
  | case2 n hn ih =>
      obtain ⟨c, front, hfront⟩ := List.exists_cons_of_ne_nil (digits_ne_nil (n / 10))
      rw [hfront, List.cons_append] at h
      obtain ⟨rfl, -⟩ := List.cons.inj h
      obtain rfl := ih hfront
      have hzero : n / 10 = 0 := by
        rw [← digitsValue_digits (n / 10), hfront]
        rfl
      omega

namespace Json

/-! ## Strings -/

/-- A digit of sixteen has its value. -/
theorem hexValue?_hexDigit : ∀ n < 16, hexValue? (hexDigit n) = some n := by
  decide

/-- A character that is no quote, backslash or control character stands for itself. -/
theorem readPoints?_cons {c : Char} (hquote : c ≠ '\x22') (hslash : c ≠ '\x5c')
    (hcontrol : ¬ c.toNat < 0x20) (rest : List Char) : readPoints? (c :: rest) =
      (readPoints? rest).map fun found => (c.toNat :: found.1, found.2) := by
  rw [readPoints?.eq_def]
  split
  · next heq => cases heq
  · next heq => exact absurd (List.cons.inj heq).1 hquote
  · next heq => exact absurd (List.cons.inj heq).1 hslash
  · next heq => exact absurd (List.cons.inj heq).1 hslash
  · next heq =>
      obtain ⟨rfl, rfl⟩ := List.cons.inj heq
      rw [if_neg hcontrol]

/-- A character is read back from its escape. -/
theorem readPoints?_escape (c : Char) (rest : List Char) : readPoints? (escape c ++ rest) =
    (readPoints? rest).map fun found => (c.toNat :: found.1, found.2) := by
  rw [escape]
  -- The first seven cases are the escapes of one letter.
  iterate 7
    split
    · next h => subst h; rfl
  split
  · next h =>
      have hhigh : hexValue? (hexDigit (c.toNat / 16)) = some (c.toNat / 16) :=
        hexValue?_hexDigit _ (by omega)
      have hlow : hexValue? (hexDigit (c.toNat % 16)) = some (c.toNat % 16) :=
        hexValue?_hexDigit _ (by omega)
      have hvalue : c.toNat / 16 * 16 + c.toNat % 16 = c.toNat := by omega
      have hzero : hexValue? '0' = some 0 := rfl
      simp [readPoints?, hexValues?, hzero, hhigh, hlow, hvalue]
  · next hquote hslash _ _ _ _ _ hcontrol => exact readPoints?_cons hquote hslash hcontrol rest

/-- An escaped text is read as its code points, up to the closing quote. -/
theorem readPoints?_flatMap (text rest : List Char) :
    readPoints? (text.flatMap escape ++ '\x22' :: rest) = some (text.map Char.toNat, rest) := by
  induction text with
  | nil => rfl
  | cons c text ih =>
      rw [List.flatMap_cons, List.append_assoc, readPoints?_escape, ih]
      rfl

/-- No character is a surrogate. -/
theorem not_surrogate (c : Char) : c.toNat < 0xD800 ∨ 0xDFFF < c.toNat := by
  rcases c.valid with h | h
  · exact .inl h
  · exact .inr h.1

/-- Code points of characters are no surrogates, and none of them are joined. -/
theorem joinSurrogates?_toNat (text : List Char) :
    joinSurrogates? (text.map Char.toNat) = some text := by
  induction text with
  | nil => rfl
  | cons c text ih =>
      have hc := not_surrogate c
      cases text with
      | nil =>
          rw [List.map_singleton, joinSurrogates?, if_neg (by omega), Char.ofNat_toNat]
      | cons next text =>
          rw [List.map_cons, List.map_cons, joinSurrogates?, if_neg (by omega), if_neg (by omega),
            ← List.map_cons, ih, Option.map_some, Char.ofNat_toNat]

/-- A quoted text is a quote, the escaped text, and a quote. -/
theorem quoted_append (text : String) (rest : List Char) :
    quoted text ++ rest = '\x22' :: (text.toList.flatMap escape ++ '\x22' :: rest) := by
  simp [quoted]

/-- A quoted text is read back. -/
theorem readString?_flatMap (text : String) (rest : List Char) :
    readString? (text.toList.flatMap escape ++ '\x22' :: rest) = some (some text, rest) := by
  rw [readString?, readPoints?_flatMap, Option.map_some, joinSurrogates?_toNat, Option.map_some,
    String.ofList_toList]

/-! ## Integers -/

/-- What may follow a value: nothing, a comma or a closing bracket. -/
def Ends (rest : List Char) : Prop :=
  ∀ c ∈ rest.head?, c = ',' ∨ c = ']' ∨ c = '\x7d'

variable {rest : List Char}

/-- What ends a value does not begin with a digit. -/
theorem Ends.not_isDigit (h : Ends rest) : ∀ c ∈ rest.head?, c.isDigit = false := by
  intro c hc
  rcases h c hc with rfl | rfl | rfl <;> rfl

/-- What ends a value begins no fraction of a number. -/
theorem Ends.readFraction? (h : Ends rest) : readFraction? rest = some ([], rest) := by
  cases rest with
  | nil => rfl
  | cons c rest => rcases h c rfl with rfl | rfl | rfl <;> rfl

/-- What ends a value begins no exponent of a number. -/
theorem Ends.readExponent? (h : Ends rest) : readExponent? rest = some (none, rest) := by
  cases rest with
  | nil => rfl
  | cons c rest => rcases h c rfl with rfl | rfl | rfl <;> rfl

/-- The digits of a number are read up to the first other character. -/
theorem readWhole?_digits (n : Nat) (h : ∀ c ∈ rest.head?, c.isDigit = false) :
    readWhole? (Text.digits n ++ rest) = some (Text.digits n, rest) := by
  have hdigits : ∀ c ∈ Text.digits n, c.isDigit = true := Text.isDigit_of_mem_digits
  rw [readWhole?, Text.takeWhile_isDigit_append hdigits h, Text.dropWhile_isDigit_append hdigits h]
  split
  · next hnil => exact absurd hnil (Text.digits_ne_nil n)
  · next hzero => exact absurd (Text.tail_eq_nil_of_digits hzero) (List.cons_ne_nil _ _)
  · rfl

/-- A number in front of the end of a value is read with its sign. -/
theorem readLiteral?_digits (negative : Bool) (n : Nat) (h : Ends rest) :
    readLiteral? negative (Text.digits n ++ rest) =
      some (.number ⟨negative, Text.digits n, [], none⟩, rest) := by
  simp [readLiteral?, readWhole?_digits n h.not_isDigit, h.readFraction?, h.readExponent?]

/-! ## Documents -/

/-- Nothing is skipped in front of a character that is no space. -/
theorem skipSpaces_cons {c : Char} (h : isSpace c = false) (rest : List Char) :
    skipSpaces (c :: rest) = c :: rest := by
  simp [skipSpaces, h]

/-- A digit is no space. -/
theorem isSpace_of_isDigit {c : Char} (h : c.isDigit = true) : isSpace c = false := by
  have hne : ∀ blank : Char, blank.isDigit = false → c ≠ blank := by
    rintro blank hblank rfl
    rw [hblank] at h
    cases h
  simp [isSpace, hne ' ' rfl, hne '\t' rfl, hne '\n' rfl, hne '\r' rfl]

/-- A value that starts with a digit is a number. -/
theorem readValue?_of_isDigit {c : Char} (h : c.isDigit = true) (steps : Nat) (rest : List Char) :
    readValue? (steps + 1) (c :: rest) = readLiteral? false (c :: rest) := by
  rw [readValue?, skipSpaces_cons (isSpace_of_isDigit h)]
  split
  case h_8 => rfl
  all_goals
    next heq => exact absurd ((List.cons.inj heq).1 ▸ h) (by decide)

/-- A number that is not negative is read as a value. -/
theorem readValue?_digits (n steps : Nat) (h : Ends rest) :
    readValue? (steps + 1) (Text.digits n ++ rest) =
      some (.number ⟨false, Text.digits n, [], none⟩, rest) := by
  obtain ⟨c, tail, htail⟩ := List.exists_cons_of_ne_nil (Text.digits_ne_nil n)
  have hc : c.isDigit = true := Text.isDigit_of_mem_digits c (htail ▸ List.mem_cons_self)
  have hread := readLiteral?_digits false n h
  rw [htail, List.cons_append] at hread ⊢
  rw [readValue?_of_isDigit hc, hread]

/-- And so is every integer. -/
theorem readValue?_integer (n : Int) (steps : Nat) (h : Ends rest) :
    readValue? (steps + 1) (Text.integer n ++ rest) = some (.number (.ofInt n), rest) := by
  cases n with
  | ofNat n =>
      rw [Text.integer, readValue?_digits n steps h]
      rfl
  | negSucc n =>
      have hliteral : Literal.ofInt (.negSucc n) = ⟨true, Text.digits (n + 1), [], none⟩ := by
        simp [Literal.ofInt]
      rw [Text.integer, List.cons_append, readValue?, skipSpaces_cons rfl, hliteral]
      exact readLiteral?_digits true (n + 1) h

/-- The reader takes the text of a document off and gives its draft. -/
def ReadsBack (a : Json) : Prop :=
  ∀ (steps : Nat) (rest : List Char), 2 * a.text.length ≤ steps → Ends rest →
    readValue? steps (a.text ++ rest) = some (a.draft, rest)

/-- No text starts with a blank or with a closing bracket. -/
theorem exists_text_eq_cons (a : Json) (h : a.IsWhole) :
    ∃ c tail, a.text = c :: tail ∧ isSpace c = false ∧ c ≠ ']' := by
  cases a with
  | null => exact ⟨_, _, rfl, rfl, by decide⟩
  | bool b => cases b <;> exact ⟨_, _, rfl, rfl, by decide⟩
  | number n =>
      cases n with
      | integer n hn =>
          cases n with
          | ofNat n =>
              obtain ⟨c, tail, htail⟩ := List.exists_cons_of_ne_nil (Text.digits_ne_nil n)
              have hc : c.isDigit = true :=
                Text.isDigit_of_mem_digits c (htail ▸ List.mem_cons_self)
              refine ⟨c, tail, htail, isSpace_of_isDigit hc, ?_⟩
              rintro rfl
              cases hc
          | negSucc n => exact ⟨_, _, rfl, rfl, by decide⟩
      | real x hx => cases h _ .refl
  | string text => exact ⟨_, _, rfl, rfl, by decide⟩
  | array items => cases items <;> exact ⟨_, _, rfl, rfl, by decide⟩
  | object members => cases members <;> exact ⟨_, _, rfl, rfl, by decide⟩

/-- Documents that hold no others are read back. -/
theorem readsBack_of_isFlat {a : Json} (hflat : a.isFlat = true) (h : a.IsWhole) :
    a.ReadsBack := by
  intro steps rest hsteps hrest
  obtain ⟨c, tail, htext, -⟩ := a.exists_text_eq_cons h
  rw [htext, List.length_cons] at hsteps
  obtain ⟨steps, rfl⟩ := Nat.exists_eq_add_one_of_ne_zero (show steps ≠ 0 by omega)
  cases a with
  | null => rfl
  | bool b => cases b <;> rfl
  | number n =>
      cases n with
      | integer n hn => exact readValue?_integer n steps hrest
      | real x hx => cases h _ .refl
  | string content =>
      rw [text, quoted_append, readValue?, skipSpaces_cons rfl]
      simp only [readString?_flatMap, Option.map_some, draft]
  | array | object => cases hflat

/-- What follows an item ends it. -/
theorem ends_itemsText (items : List Json) (rest : List Char) : Ends (itemsText items ++ rest) := by
  intro c hc
  cases items with
  | nil => exact .inr (.inl (Option.some.inj hc).symm)
  | cons item items => exact .inl (Option.some.inj hc).symm

/-- What follows a member ends it. -/
theorem ends_membersText (members : List (String × Json)) (rest : List Char) :
    Ends (membersText members ++ rest) := by
  intro c hc
  cases members with
  | nil => exact .inr (.inr (Option.some.inj hc).symm)
  | cons member members => exact .inl (Option.some.inj hc).symm

/-- Items are read one after another up to the closing bracket. -/
theorem readItems?_itemsText (item : Json) (items : List Json) (steps : Nat)
    (hitems : ∀ other ∈ item :: items, other.ReadsBack)
    (hsteps : 2 * (item.text ++ itemsText items).length ≤ steps) (rest : List Char) :
    readItems? steps (item.text ++ (itemsText items ++ rest)) =
      some (item.draft :: itemDrafts items, rest) := by
  induction items generalizing item steps with
  | nil =>
      simp only [List.length_append, itemsText, List.length_singleton] at hsteps
      obtain ⟨steps, rfl⟩ := Nat.exists_eq_add_one_of_ne_zero (show steps ≠ 0 by omega)
      have hitem := hitems item List.mem_cons_self steps _ (by omega)
        (ends_itemsText [] rest)
      rw [readItems?, hitem]
      rfl
  | cons next items ih =>
      simp only [List.length_append, itemsText, List.length_cons] at hsteps
      obtain ⟨steps, rfl⟩ := Nat.exists_eq_add_one_of_ne_zero (show steps ≠ 0 by omega)
      have hitem := hitems item List.mem_cons_self steps _ (by omega)
        (ends_itemsText (next :: items) rest)
      have hrest := ih next steps
        (fun other hmem => hitems other (List.mem_cons_of_mem _ hmem))
        (by rw [List.length_append]; omega)
      rw [readItems?, hitem, itemsText, List.cons_append, List.cons_append, List.append_assoc]
      simp only [skipSpaces_cons (c := ',') rfl, hrest, Option.map_some, itemDrafts]

/-- Members are read one after another up to the closing brace. -/
theorem readMembers?_membersText (name : String) (value : Json) (members : List (String × Json))
    (steps : Nat) (hmembers : ∀ other ∈ (name, value) :: members, other.2.ReadsBack)
    (hsteps : 2 * (quoted name ++ ':' :: value.text ++ membersText members).length ≤ steps)
    (rest : List Char) :
    readMembers? steps (quoted name ++ ':' :: (value.text ++ (membersText members ++ rest))) =
      some ((some name, value.draft) :: memberDrafts members, rest) := by
  induction members generalizing name value steps with
  | nil =>
      simp only [List.length_append, membersText, List.length_cons] at hsteps
      obtain ⟨steps, rfl⟩ := Nat.exists_eq_add_one_of_ne_zero (show steps ≠ 0 by omega)
      have hbound : 2 * value.text.length ≤ steps := by omega
      have hvalue := hmembers _ List.mem_cons_self steps _ hbound
        (ends_membersText [] rest)
      rw [quoted_append, readMembers?, skipSpaces_cons rfl]
      simp only [readString?_flatMap, skipSpaces_cons (c := ':') rfl, hvalue]
      rfl
  | cons next members ih =>
      obtain ⟨nextName, next⟩ := next
      simp only [List.length_append, membersText, List.length_cons] at hsteps
      obtain ⟨steps, rfl⟩ := Nat.exists_eq_add_one_of_ne_zero (show steps ≠ 0 by omega)
      have hbound : 2 * value.text.length ≤ steps := by omega
      have hvalue := hmembers _ List.mem_cons_self steps _ hbound
        (ends_membersText ((nextName, next) :: members) rest)
      have hrest := ih nextName next steps
        (fun other hmem => hmembers other (List.mem_cons_of_mem _ hmem))
        (by simp only [List.length_append, List.length_cons]; omega)
      rw [quoted_append, readMembers?, skipSpaces_cons rfl]
      simp only [readString?_flatMap, skipSpaces_cons (c := ':') rfl, hvalue]
      rw [membersText]
      simp only [List.cons_append, List.append_assoc, skipSpaces_cons (c := ',') rfl, hrest,
        Option.map_some, memberDrafts]

/-- Behind a bracket, the items of an array are read. -/
theorem readValue?_bracket {c : Char} {tail : List Char} (hspace : isSpace c = false)
    (hc : c ≠ ']') (steps : Nat) : readValue? (steps + 1) ('[' :: c :: tail) =
      (readItems? steps (c :: tail)).map fun found => (.array found.1, found.2) := by
  rw [readValue?, skipSpaces_cons rfl]
  simp only [skipSpaces_cons hspace]
  split
  · next heq => exact absurd (List.cons.inj heq).1 hc
  · rfl

/-- Behind a brace, the members of an object are read. -/
theorem readValue?_brace (name : String) (tail : List Char) (steps : Nat) :
    readValue? (steps + 1) ('\x7b' :: (quoted name ++ tail)) =
      (readMembers? steps (quoted name ++ tail)).map fun found => (.object found.1, found.2) := by
  rw [quoted_append, readValue?, skipSpaces_cons rfl]
  rfl

/-- Every document whose numbers are integers is read back, whatever is nested in it. -/
theorem IsWhole.readsBack {a : Json} (h : a.IsWhole) : a.ReadsBack := by
  induction a using nested_induction with
  | flat a hflat => exact readsBack_of_isFlat hflat h
  | array items ih =>
      intro steps rest hsteps hrest
      cases items with
      | nil =>
          rw [text, List.length_cons] at hsteps
          obtain ⟨steps, rfl⟩ := Nat.exists_eq_add_one_of_ne_zero (show steps ≠ 0 by omega)
          rfl
      | cons item items =>
          rw [text, List.length_append, List.length_cons] at hsteps
          obtain ⟨steps, rfl⟩ := Nat.exists_eq_add_one_of_ne_zero (show steps ≠ 0 by omega)
          have hitems := readItems?_itemsText item items steps
            (fun other hmem => ih other hmem (isWhole_array_iff.mp h other hmem))
            (by rw [List.length_append]; omega) rest
          obtain ⟨c, tail, htext, hspace, hc⟩ :=
            item.exists_text_eq_cons (isWhole_array_iff.mp h item List.mem_cons_self)
          rw [text, List.cons_append, List.cons_append, List.append_assoc]
          rw [htext, List.cons_append] at hitems ⊢
          rw [readValue?_bracket hspace hc, hitems]
          rfl
  | object members ih =>
      intro steps rest hsteps hrest
      cases members with
      | nil =>
          rw [text, List.length_cons] at hsteps
          obtain ⟨steps, rfl⟩ := Nat.exists_eq_add_one_of_ne_zero (show steps ≠ 0 by omega)
          rfl
      | cons member members =>
          obtain ⟨name, value⟩ := member
          simp only [text, List.length_append, List.length_cons] at hsteps
          obtain ⟨steps, rfl⟩ := Nat.exists_eq_add_one_of_ne_zero (show steps ≠ 0 by omega)
          have hmembers := readMembers?_membersText name value members steps
            (fun other hmem => ih other hmem (isWhole_object_iff.mp h other hmem))
            (by simp only [List.length_append, List.length_cons]; omega) rest
          rw [text]
          simp only [List.cons_append, List.append_assoc]
          rw [readValue?_brace, hmembers]
          rfl

/-- A document whose numbers are integers is read as its draft. -/
theorem Draft.read?_text {a : Json} (h : a.IsWhole) : Draft.read? a.text = some a.draft := by
  have hread := h.readsBack (2 * a.text.length + 2) [] (by omega) (by simp [Ends])
  rw [List.append_nil] at hread
  rw [Draft.read?, hread]
  rfl

/-- A sorted document whose numbers are integers is read back from its text, if it does not have
too many levels. -/
theorem read?_text {a : Json} (hwhole : a.IsWhole) (hsorted : a.IsSorted)
    (hdepth : a.depth ≤ maxDepth) : read? a.text = some a := by
  rw [read?, Draft.read?_text hwhole, Option.bind_some, Draft.json?_draft hwhole hsorted hdepth]

end Json

end DocumentClient
