import DocumentClient.Proofs.Trimming
import DocumentClient.Text.Splitting
import Mathlib.Data.List.DropRight

/-!
# Facts about cutting and about the ends of texts

Cutting at the first separator undoes writing it behind a text that does not hold it
(`cutAt_eq_some_iff`), and `splitAt` is `List.splitOn`, whose lemmas then apply. Trimming the end
of a text goes no further back than to the last character that is not blank.
-/

namespace DocumentClient.Text

variable {separator : Char} {text first rest : List Char}

/-! ## Cutting at separators -/

/-- What stands before the first separator stays before it. -/
theorem cutAt_append (h : separator ∉ first) (text : List Char) :
    cutAt separator (first ++ text) =
      (cutAt separator text).map fun parts => (first ++ parts.1, parts.2) := by
  induction first with
  | nil => simp
  | cons c first ih =>
      obtain ⟨hc, hfirst⟩ := not_or.mp (mt List.mem_cons.mpr h)
      rw [List.cons_append, cutAt, if_neg (Ne.symm hc), ih hfirst, Option.map_map]
      rfl

/-- A cut is made in front of a separator that was not there before. -/
theorem cutAt_append_cons (h : separator ∉ first) (rest : List Char) :
    cutAt separator (first ++ separator :: rest) = some (first, rest) := by
  simp [cutAt_append h, cutAt]

/-- No cut is made exactly if there is no separator. -/
theorem cutAt_eq_none_iff : cutAt separator text = none ↔ separator ∉ text := by
  induction text with
  | nil => simp [cutAt]
  | cons c text ih =>
      rw [cutAt, List.mem_cons]
      by_cases hc : c = separator
      · simp [hc]
      · rw [if_neg hc, Option.map_eq_none_iff, ih, or_iff_right (Ne.symm hc)]

/-- A cut is made at the first separator. -/
theorem cutAt_eq_some_iff : cutAt separator text = some (first, rest) ↔
    text = first ++ separator :: rest ∧ separator ∉ first := by
  constructor
  · intro h
    induction text generalizing first with
    | nil => simp [cutAt] at h
    | cons c text ih =>
        rw [cutAt] at h
        split at h
        · next hc =>
            obtain ⟨rfl, rfl⟩ := Prod.mk.inj (Option.some.inj h)
            exact ⟨by rw [hc]; rfl, List.not_mem_nil⟩
        · next hc =>
            obtain ⟨⟨front, back⟩, hcut, hparts⟩ := Option.map_eq_some_iff.mp h
            obtain ⟨rfl, rfl⟩ := Prod.mk.inj hparts
            obtain ⟨rfl, hfront⟩ := ih hcut
            exact ⟨rfl, List.not_mem_cons_of_ne_of_not_mem (Ne.symm hc) hfront⟩
  · rintro ⟨rfl, h⟩
    exact cutAt_append_cons h rest

/-- Splitting a text is splitting a list. -/
theorem splitAt_eq_splitOn (separator : Char) (text : List Char) :
    splitAt separator text = text.splitOn separator := by
  induction text with
  | nil => rfl
  | cons c text ih =>
      rw [splitAt, List.splitOn_cons_eq_if_modifyHead, ih]
      by_cases hc : c = separator
      · simp [hc]
      · simp only [hc, if_false, beq_iff_eq]
        cases hpieces : text.splitOn separator with
        | nil => exact absurd hpieces (List.splitOn_ne_nil separator text)
        | cons piece pieces => rfl

/-- No piece holds the separator. -/
theorem not_mem_of_mem_splitAt {piece : List Char} (h : piece ∈ splitAt separator text) :
    separator ∉ piece := by
  induction text generalizing piece with
  | nil =>
      obtain rfl := List.mem_singleton.mp h
      exact List.not_mem_nil
  | cons c text ih =>
      rw [splitAt] at h
      split at h
      · rcases List.mem_cons.mp h with rfl | h
        · exact List.not_mem_nil
        · exact ih h
      · next hc =>
          split at h
          · obtain rfl := List.mem_singleton.mp h
            simpa using Ne.symm hc
          · next head pieces hsplit =>
              rw [hsplit] at ih
              rcases List.mem_cons.mp h with rfl | h
              · exact List.not_mem_cons_of_ne_of_not_mem (Ne.symm hc) (ih List.mem_cons_self)
              · exact ih (List.mem_cons_of_mem _ h)

/-- What is joined ends in the last piece. -/
theorem intercalate_concat (separator : List Char) (pieces : List (List Char)) :
    ∃ front, ∀ last, separator.intercalate (pieces ++ [last]) = front ++ last := by
  induction pieces with
  | nil => exact ⟨[], fun last => List.intercalate_singleton⟩
  | cons piece pieces ih =>
      obtain ⟨front, hfront⟩ := ih
      refine ⟨piece ++ separator ++ front, fun last => ?_⟩
      rw [List.cons_append, List.intercalate_cons_of_ne_nil (by simp), hfront,
        List.append_assoc _ front]

/-! ## The end of a text -/

/-- Whether a text ends in a blank. -/
def endsBlank (text : List Char) : Bool :=
  text.getLast?.any isBlank

/-- A text is trimmed at its end exactly if it does not end in a blank. -/
theorem trimEnd_eq_self_iff (text : List Char) : trimEnd text = text ↔ endsBlank text = false := by
  have h := List.rdropWhile_eq_self_iff (p := isBlank) (l := text)
  rw [show text.rdropWhile isBlank = trimEnd text from rfl] at h
  rw [h, endsBlank]
  cases text with
  | nil => simp
  | cons c text => simp [List.getLast?_eq_some_getLast]

/-- Otherwise trimming changes it. -/
theorem trimEnd_ne_self (h : endsBlank text = true) : trimEnd text ≠ text := by
  rw [ne_eq, trimEnd_eq_self_iff, h]
  decide

/-- Trimming the end adds no character. -/
theorem not_mem_trimEnd {c : Char} (h : c ∉ text) : c ∉ trimEnd text :=
  fun hmem => h ((List.rdropWhile_prefix isBlank text).subset hmem)

/-- Trimming the end stops at a character that is not blank. -/
theorem trimEnd_append_cons (front : List Char) {c : Char} (hc : isBlank c = false)
    (back : List Char) : trimEnd (front ++ c :: back) = front ++ c :: trimEnd back := by
  induction front with
  | nil => rw [List.nil_append, trimEnd_cons, if_neg (by simp [hc])]; rfl
  | cons x front ih =>
      rw [List.cons_append, trimEnd_cons, ih, if_neg (by simp)]
      rfl

/-- Behind a character that is not blank, only the rest of the text decides. -/
theorem endsBlank_append_cons (front : List Char) {c : Char} (hc : isBlank c = false)
    (back : List Char) : endsBlank (front ++ c :: back) = endsBlank back := by
  rw [endsBlank, endsBlank, List.getLast?_append, List.getLast?_cons]
  cases back.getLast? with
  | none => simp [hc]
  | some d => simp

/-- Trimming leaves a text that starts with no blank but for its end. -/
theorem trim_cons {c : Char} (hc : isBlank c = false) (text : List Char) :
    trim (c :: text) = trimEnd (c :: text) := by
  rw [trim, trimStart_cons, hc]
  rfl

end DocumentClient.Text
