/-!
# Cutting texts

`cutAt` cuts at the first occurrence of a separator, `splitAt` at every one of them, and
`lines` after every line feed. A separator belongs to no piece.
-/

namespace DocumentClient.Text

/-- The parts before and after the first separator, if there is one. -/
def cutAt (separator : Char) : List Char → Option (List Char × List Char)
  | [] => none
  | c :: rest =>
    if c = separator then some ([], rest)
    else (cutAt separator rest).map fun parts => (c :: parts.1, parts.2)

/-- Cutting takes at least the separator off the text. -/
theorem cutAt_length {separator : Char} {text first rest : List Char}
    (h : cutAt separator text = some (first, rest)) : rest.length < text.length := by
  induction text generalizing first with
  | nil => simp [cutAt] at h
  | cons c text ih =>
    simp only [cutAt] at h
    split at h
    · simp_all
    · obtain ⟨⟨a, b⟩, hab, heq⟩ := Option.map_eq_some_iff.mp h
      simp only [Prod.mk.injEq] at heq
      obtain ⟨-, rfl⟩ := heq
      have := ih hab
      simp only [List.length_cons]
      omega

/-- The pieces between separators; a text without one is a single piece. -/
def splitAt (separator : Char) : List Char → List (List Char)
  | [] => [[]]
  | c :: rest =>
    if c = separator then [] :: splitAt separator rest
    else match splitAt separator rest with
      | [] => [[c]]
      | piece :: pieces => (c :: piece) :: pieces

/-- The lines of a text. A line ends with a line feed, and a carriage return right before the
line feed belongs to the ending; what follows the last line feed is a line unless it is empty. -/
def lines : List Char → List (List Char)
  | [] => []
  | '\r' :: '\n' :: rest => [] :: lines rest
  | '\n' :: rest => [] :: lines rest
  | c :: rest =>
    match lines rest with
    | [] => [[c]]
    | line :: following => (c :: line) :: following

end DocumentClient.Text
