import DocumentClient.Text.Blank
import Mathlib.Data.List.DropRight

/-!
# Facts about trimming

Trimming is described by one equation for each end of the text. From these follow the two facts
that the readers of commands rest on: the ends can be trimmed in either order, and a trimmed
text is trimmed already.
-/

namespace DocumentClient.Text

/-- A blank at the start is dropped, and nothing after the first other character is. -/
theorem trimStart_cons (c : Char) (rest : List Char) :
    trimStart (c :: rest) = if isBlank c then trimStart rest else c :: rest := by
  simp only [trimStart, List.dropWhile_cons]

/-- A character stays in front of a trimmed end unless it is blank and nothing else is left. -/
theorem trimEnd_cons (c : Char) (rest : List Char) :
    trimEnd (c :: rest) = if trimEnd rest = [] ∧ isBlank c then [] else c :: trimEnd rest := by
  simp only [trimEnd, List.reverse_cons, List.dropWhile_append, List.reverse_eq_nil_iff,
    List.isEmpty_iff]
  by_cases h : List.dropWhile isBlank rest.reverse = []
  · by_cases hc : isBlank c <;> simp [h, hc]
  · simp [h]

/-- The two ends can be trimmed in either order. -/
theorem trimStart_trimEnd (text : List Char) :
    trimStart (trimEnd text) = trimEnd (trimStart text) := by
  induction text with
  | nil => rfl
  | cons c rest ih =>
      by_cases hc : isBlank c
      · rw [trimStart_cons, if_pos hc, ← ih, trimEnd_cons]
        split
        · next h => simp [h.1, trimStart]
        · rw [trimStart_cons, if_pos hc]
      · rw [trimStart_cons, if_neg hc, trimEnd_cons, if_neg (by simp [hc]), trimStart_cons,
          if_neg hc]

/-- Trimming the end is dropping blanks from the right. -/
theorem trimEnd_eq_rdropWhile (text : List Char) : trimEnd text = text.rdropWhile isBlank :=
  rfl

/-- A trimmed text has no blank at its start. -/
theorem trimStart_trim (text : List Char) : trimStart (trim text) = trim text := by
  rw [trim, trimStart_trimEnd, trimStart, trimStart, List.dropWhile_idempotent]

/-- A trimmed text is trimmed already. -/
theorem trim_trim (text : List Char) : trim (trim text) = trim text := by
  rw [trim, trimStart_trim, trim, trimEnd_eq_rdropWhile, trimEnd_eq_rdropWhile,
    List.rdropWhile_idempotent]

/-- A text from whose start nothing is dropped starts with no blank. -/
theorem not_blank_of_trimStart {c : Char} {rest : List Char}
    (h : trimStart (c :: rest) = c :: rest) : isBlank c = false := by
  refine Bool.eq_false_iff.mpr fun hblank => ?_
  rw [trimStart_cons, if_pos hblank] at h
  have hlength := congrArg List.length h
  have hle := trimStart_length_le rest
  rw [List.length_cons] at hlength
  omega

/-- In front of a word nothing is dropped. -/
theorem trimStart_word_append {word : List Char} (hne : word ≠ [])
    (hword : ∀ c ∈ word, isBlank c = false) (rest : List Char) :
    trimStart (word ++ rest) = word ++ rest := by
  obtain ⟨c, word, rfl⟩ := List.exists_cons_of_ne_nil hne
  rw [List.cons_append, trimStart_cons, hword c List.mem_cons_self, if_neg Bool.false_ne_true]

/-! ## Marks -/

/-- A printable character of ASCII that is not the space. -/
def IsVisible (c : Char) : Prop :=
  0x20 < c.toNat ∧ c.toNat < 0x7F

instance (c : Char) : Decidable (IsVisible c) :=
  inferInstanceAs (Decidable (_ ∧ _))

/-- Such a character is not blank. -/
theorem IsVisible.not_blank {c : Char} (h : IsVisible c) : isBlank c = false := by
  have hpoint := h.1
  have hlast := h.2
  rw [Bool.eq_false_iff, isBlank]
  simp only [ne_eq, Bool.or_eq_true, Bool.and_eq_true, decide_eq_true_eq, beq_iff_eq]
  omega

/-- It stays at the start of a text. -/
theorem IsVisible.trimStart_cons {c : Char} (h : IsVisible c) (rest : List Char) :
    trimStart (c :: rest) = c :: rest := by
  rw [Text.trimStart_cons, h.not_blank, if_neg Bool.false_ne_true]

/-! ## Blank texts -/

/-- Trimming leaves nothing exactly when the text is blank. -/
theorem trim_eq_nil_iff (text : List Char) : trim text = [] ↔ text.all isBlank = true := by
  induction text with
  | nil => simp [trim, trimStart, trimEnd]
  | cons c rest ih =>
      by_cases hc : isBlank c
      · rw [trim, trimStart_cons, if_pos hc, List.all_cons, hc, Bool.true_and, ← ih, trim]
      · rw [trim, trimStart_cons, if_neg hc, trimEnd_cons, if_neg (by simp [hc])]
        simp [hc]

/-- A text is blank exactly if trimming leaves nothing of it. -/
theorem isBlankText_iff (text : String) : isBlankText text = true ↔ trim text.toList = [] :=
  (trim_eq_nil_iff text.toList).symm

end DocumentClient.Text
