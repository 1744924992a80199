import DocumentClient.Number.Reading
import DocumentClient.Text.Keyword
import DocumentClient.Text.Splitting
import DocumentClient.Value
/-!
# Assignments

The text after `SET` is a list of assignments `name = literal`, separated by commas, and the
text after `WHERE` is a single one. A literal is null, a truth value, an integer, a number, or a
text in single quotes. `readAssignments` and `readCondition` read these texts.
-/

namespace DocumentClient.Memory

/-- A field name and the value it is set to or compared with. -/
abbrev Assignment := String × Value

/-- The text between single quotes, if the whole text is in them. -/
def unquote? : List Char → Option (List Char)
  | '\x27' :: rest => if rest.getLast? = some '\x27' then some rest.dropLast else none
  | _ => none

/-- The literal that a word is, ignoring ASCII case. -/
def wordLiteral? (text : List Char) : Option Value :=
  let word := String.ofList (text.map Text.lowerAscii)
  if word = "null" then some .null
  else if word = "true" then some (.bool true)
  else if word = "false" then some (.bool false)
  else none

/-- The literal that a text without blanks at its ends is. -/
def literal? (text : List Char) : Option Value :=
  match unquote? text with
  | some quoted => some (.string (String.ofList quoted))
  | none =>
    match wordLiteral? text with
    | some value => some value
    | none =>
      match Text.readInt64? text with
      | some n => some (.int64 n)
      | none => (readDouble? text).map .double

/-- Reads a literal, with blanks around it. -/
def readLiteral (text : List Char) : Except EngineError Value :=
  let text := Text.trim text
  match literal? text with
  | some value => .ok value
  | none => .error (.parse ("Invalid literal '" ++ String.ofList text ++ "'"))

/-- The text of a quoted literal that ends the text or is followed by a comma, and what follows
the comma. -/
def cutQuoted? (text : List Char) : Option (List Char × List Char) :=
  match Text.trimStart text with
  | '\x27' :: body =>
    match Text.cutAt '\x27' body with
    | none => none
    | some (quoted, rest) =>
      match Text.trimStart rest with
      | [] => some ('\x27' :: quoted ++ ['\x27'], [])
      | c :: rest => if c = ',' then some ('\x27' :: quoted ++ ['\x27'], rest) else none
  | _ => none

/-- The text before the first comma, which is not empty, and what follows the comma. -/
def cutPlain? (text : List Char) : Option (List Char × List Char) :=
  match Text.cutAt ',' text with
  | some ([], _) => none
  | some found => some found
  | none => if text.isEmpty then none else some (text, [])

/-- The text of a literal and what follows the comma after it. A quoted literal may hold commas;
where no quoted literal stands, the first comma ends the text. -/
def cutLiteral? (text : List Char) : Option (List Char × List Char) :=
  (cutQuoted? text).or (cutPlain? text)

/-- The name and the text of the literal of the first assignment, and what follows its comma. -/
def cutAssignment? (text : List Char) : Option (List Char × List Char × List Char) :=
  match Text.readName? text with
  | none => none
  | some (name, rest) =>
    match Text.trimStart rest with
    | '=' :: rest => (cutLiteral? rest).map fun found => (name, found)
    | _ => none

/-- A quoted literal takes at least its quotes off the text. -/
theorem cutQuoted?_length {text literal rest : List Char}
    (h : cutQuoted? text = some (literal, rest)) : rest.length < text.length := by
  have htrim := Text.trimStart_length_le text
  unfold cutQuoted? at h
  split at h
  · next body heq =>
    rw [heq, List.length_cons] at htrim
    split at h
    · simp at h
    · next quoted tail hcut =>
      have hshort := Text.cutAt_length hcut
      have hblank := Text.trimStart_length_le tail
      split at h
      · simp only [Option.some.injEq, Prod.mk.injEq] at h
        obtain ⟨-, rfl⟩ := h
        simp only [List.length_nil]
        omega
      · next c after hc =>
        rw [hc, List.length_cons] at hblank
        split at h
        · simp only [Option.some.injEq, Prod.mk.injEq] at h
          obtain ⟨-, rfl⟩ := h
          omega
        · simp at h
  · simp at h

/-- A plain literal takes at least one character off the text. -/
theorem cutPlain?_length {text literal rest : List Char}
    (h : cutPlain? text = some (literal, rest)) : rest.length < text.length := by
  unfold cutPlain? at h
  split at h
  · simp at h
  · next found _ heq =>
    cases h
    exact Text.cutAt_length heq
  · split at h
    · simp at h
    · simp only [Option.some.injEq, Prod.mk.injEq] at h
      obtain ⟨-, rfl⟩ := h
      cases text <;> simp_all

/-- Reading an assignment takes something off the text. -/
theorem cutAssignment?_length {text name literal rest : List Char}
    (h : cutAssignment? text = some (name, literal, rest)) : rest.length < text.length := by
  unfold cutAssignment? at h
  split at h
  · simp at h
  · next word tail hname =>
    have hle := Text.readName?_length hname
    have hblank := Text.trimStart_length_le tail
    split at h
    · next after heq =>
      rw [heq, List.length_cons] at hblank
      obtain ⟨⟨a, b⟩, hcut, hfound⟩ := Option.map_eq_some_iff.mp h
      simp only [Prod.mk.injEq] at hfound
      obtain ⟨-, -, rfl⟩ := hfound
      unfold cutLiteral? at hcut
      rcases Option.or_eq_some_iff.mp hcut with hq | ⟨-, hp⟩
      · have := cutQuoted?_length hq
        omega
      · have := cutPlain?_length hp
        omega
    · simp at h

/-- Reads assignments from a text without blanks at its ends. -/
def assignmentsFrom (text : List Char) : Except EngineError (List Assignment) :=
  if text.isEmpty then .ok []
  else
    match _h : cutAssignment? text with
    | none => .error (.parse ("Invalid assignment near '" ++ String.ofList text ++ "'"))
    | some (name, literal, rest) => do
      let value ← readLiteral literal
      let others ← assignmentsFrom (Text.trimStart rest)
      return (String.ofList name, value) :: others
termination_by text.length
decreasing_by
  have := cutAssignment?_length _h
  have := Text.trimStart_length_le rest
  omega

/-- Reads a list of assignments, with blanks around it. -/
def readAssignments (text : List Char) : Except EngineError (List Assignment) :=
  assignmentsFrom (Text.trim text)

/-- Reads a condition, which is a single assignment. -/
def readCondition (text : List Char) : Except EngineError Assignment := do
  match ← readAssignments text with
  | [condition] => .ok condition
  | _ =>
    .error (.parse
      ("Only a single equality condition is supported: '" ++ String.ofList text ++ "'"))

end DocumentClient.Memory
