import DocumentClient.Proofs.AssignmentTexts
import DocumentClient.Proofs.IdentityTexts

/-!
# Lists of assignments as they are written

`SpellsAll text assignments` says that the text writes the assignments one after the other, with
commas between them, any blanks around their parts, and perhaps a comma behind the last one.
`exists_spellsAll_iff` says which lists can be written. `read_spellings` says that all their texts
are read back as they were meant, and that a condition is read from those of a single assignment
only.

The induction is on how the list is written. A comma or an equals sign between quotes is no obstacle
in a step, because `Equation.readAssignments_cons` takes an equation off in front of any text.
-/

namespace DocumentClient.Memory

open Text

/-! ## Values with a literal -/

/-- The value has a literal. A text with a single quote in it has none. -/
def Spellable : Value → Prop
  | .null | .bool _ | .int64 _ => True
  | .string text => '\x27' ∉ text.toList
  | _ => False

variable {text : List Char} {value : Value} {a : Assignment} {assignments : List Assignment}

/-- What is spelled by some text can be spelled. -/
theorem Spells.spellable (h : Spells text value) : Spellable value := by
  cases h with
  | null | bool | integer => exact trivial
  | quoted body hbody =>
      show '\x27' ∉ (String.ofList body).toList
      rwa [String.toList_ofList]

/-- What can be spelled is spelled by some text. -/
theorem Spellable.exists_spells (h : Spellable value) : ∃ text, Spells text value := by
  cases value with
  | null => exact ⟨"null".toList, .null _ (by decide)⟩
  | bool b => exact ⟨(toString b).toList, .bool _ b (by cases b <;> decide)⟩
  | int64 n => exact ⟨integer n.toInt, .integer _ n (isDecimal_integer n.toInt)⟩
  | string s =>
      have hquoted := Spells.quoted s.toList h
      rw [String.ofList_toList] at hquoted
      exact ⟨_, hquoted⟩
  | int32 | double | decimal | bytes | date | dateTime | link | embedded | array | json =>
      exact h.elim

/-- The assignment can be written: its name is one, and its value has a literal. -/
structure Assignable (a : Assignment) : Prop where
  isName : IsName a.1.toList
  spellable : Spellable a.2

/-- What an equation assigns can be written. -/
theorem Equation.assignable (e : Equation) : Assignable e.assignment where
  isName := by
    show IsName (String.ofList e.name).toList
    rw [String.toList_ofList]
    exact e.isName
  spellable := e.spells.spellable

/-- An assignment that can be written is that of some equation. -/
theorem Assignable.exists_equation (h : Assignable a) : ∃ e : Equation, e.assignment = a := by
  obtain ⟨literal, hliteral⟩ := h.spellable.exists_spells
  refine ⟨⟨a.1.toList, literal, a.2, h.isName, hliteral⟩, ?_⟩
  rw [Equation.assignment, String.ofList_toList]

/-! ## Lists -/

/-- `SpellsAll text assignments` says that the text writes the assignments in order. -/
inductive SpellsAll : List Char → List Assignment → Prop where
  | last (e : Equation) (g : Gaps) : SpellsAll (e.spaced g) [e.assignment]
  | lastComma (e : Equation) (g : Gaps) (blanks : List Char) (h : AllBlank blanks) :
      SpellsAll (e.spaced g ++ ',' :: blanks) [e.assignment]
  | next (e : Equation) (g : Gaps) (rest : List Char) (others : List Assignment)
      (h : SpellsAll rest others) : SpellsAll (e.spaced g ++ ',' :: rest) (e.assignment :: others)

/-- The empty list of assignments has no spelling. -/
theorem SpellsAll.ne_nil (h : SpellsAll text assignments) : assignments ≠ [] := by
  cases h <;> exact List.cons_ne_nil _ _

/-- In a list that has a spelling, every assignment can be written. -/
theorem SpellsAll.assignable (h : SpellsAll text assignments) :
    ∀ a ∈ assignments, Assignable a := by
  induction h with
  | last e g => exact List.forall_mem_singleton.mpr e.assignable
  | lastComma e g blanks _ => exact List.forall_mem_singleton.mpr e.assignable
  | next e g rest others _ ih => exact List.forall_mem_cons.mpr ⟨e.assignable, ih⟩

/-- A list of such assignments has a spelling, by induction on the list. -/
theorem exists_spellsAll (hne : assignments ≠ []) (h : ∀ a ∈ assignments, Assignable a) :
    ∃ text, SpellsAll text assignments := by
  induction assignments with
  | nil => exact absurd rfl hne
  | cons a others ih =>
      obtain ⟨ha, hothers⟩ := List.forall_mem_cons.mp h
      obtain ⟨e, rfl⟩ := ha.exists_equation
      by_cases hlast : others = []
      · subst hlast
        exact ⟨_, .last e .plain⟩
      · obtain ⟨rest, hrest⟩ := ih hlast hothers
        exact ⟨_, .next e .plain rest others hrest⟩

/-- The lists that can be written are those of one or more assignments that can. -/
theorem exists_spellsAll_iff :
    (∃ text, SpellsAll text assignments) ↔
      assignments ≠ [] ∧ ∀ a ∈ assignments, Assignable a := by
  constructor
  · rintro ⟨text, h⟩
    exact ⟨h.ne_nil, h.assignable⟩
  · rintro ⟨hne, h⟩
    exact exists_spellsAll hne h

/-! ## Reading -/

/-- A text of blanks is read as no assignments. -/
theorem readAssignments_of_allBlank (h : AllBlank text) : readAssignments text = .ok [] := by
  have htrim : trim text = [] := (trim_eq_nil_iff text).mpr (List.all_eq_true.mpr h)
  rw [readAssignments, htrim, assignmentsFrom]
  rfl

/-- A written list is read back. -/
theorem readAssignments_of_spellsAll (h : SpellsAll text assignments) :
    readAssignments text = .ok assignments := by
  induction h with
  | last e g => exact e.readAssignments_single g
  | lastComma e g blanks hblanks =>
      rw [e.readAssignments_cons, readAssignments_of_allBlank hblanks]
      rfl
  | next e g rest others _ ih =>
      rw [e.readAssignments_cons, ih]
      rfl

/-- Assignments that can be written have texts. From each of them exactly these assignments are
read, in order, and a condition is read only if there is one assignment, and is that one. -/
theorem read_spellings {assignments : List Assignment} (hne : assignments ≠ [])
    (h : ∀ a ∈ assignments, Assignable a) :
    (∃ text, SpellsAll text assignments) ∧
      ∀ text, SpellsAll text assignments →
        readAssignments text = .ok assignments ∧
          (∀ condition, readCondition text = .ok condition ↔ assignments = [condition]) ∧
          ((∃ condition, readCondition text = .ok condition) ↔ assignments.length = 1) := by
  refine ⟨exists_spellsAll_iff.mpr ⟨hne, h⟩, fun text htext => ?_⟩
  have hread := readAssignments_of_spellsAll htext
  have hcondition : ∀ condition,
      readCondition text = .ok condition ↔ assignments = [condition] := by
    intro condition
    rw [readCondition_eq_ok_iff, hread, Except.ok.injEq]
  refine ⟨hread, hcondition, ?_⟩
  rw [List.length_eq_one_iff]
  exact exists_congr hcondition

/-- An equation with a comma and an equals sign between its quotes. -/
def titleEquation : Equation where
  name := "title".toList
  literal := "'a, b = \n'".toList
  value := .string "a, b = \n"
  isName := by decide
  spells := .quoted "a, b = \n".toList (by decide)

def sizeEquation : Equation where
  name := "größe".toList
  literal := "-007".toList
  value := .int64 (-7)
  isName := by decide
  spells := .integer _ (-7) (.minus "007".toList (by decide) (List.all_eq_true.mp (by decide)))

/-- Blanks of several kinds. -/
def wideGaps : Gaps where
  beforeName := ['\u2003']
  afterName := ['\t']
  beforeLiteral := ['\r', '\n']
  afterLiteral := [' ']
  beforeName_blank := List.all_eq_true.mp rfl
  afterName_blank := List.all_eq_true.mp rfl
  beforeLiteral_blank := List.all_eq_true.mp rfl
  afterLiteral_blank := List.all_eq_true.mp rfl

def seatsText : List Char :=
  "\u2003title\t=\r\n'a, b = \n' ,größe = -007,\n".toList

def seatsAssignments : List Assignment :=
  [("title", .string "a, b = \n"), ("größe", .int64 (-7))]

/-- The list of seats is spelled with all the freedom that there is. -/
theorem spellsAll_seats : SpellsAll seatsText seatsAssignments := by
  have htext : titleEquation.spaced wideGaps ++ ',' :: (sizeEquation.spaced .plain ++ [',', '\n']) =
      seatsText := by decide +kernel
  have hlast : SpellsAll (sizeEquation.spaced .plain ++ [',', '\n']) [("größe", .int64 (-7))] :=
    .lastComma sizeEquation .plain ['\n'] (List.all_eq_true.mp rfl)
  rw [← htext]
  exact .next titleEquation wideGaps _ _ hlast

/-- It is read back, and is no condition, because it holds three assignments. -/
theorem read_spellings_seats :
    seatsAssignments ≠ [] ∧ (∀ a ∈ seatsAssignments, Assignable a) ∧
      SpellsAll seatsText seatsAssignments ∧
      readAssignments seatsText = .ok seatsAssignments ∧
      ¬ ∃ condition, readCondition seatsText = .ok condition := by
  have htext := spellsAll_seats
  have hne : seatsAssignments ≠ [] := List.cons_ne_nil _ _
  obtain ⟨hread, -, hcondition⟩ :=
    (read_spellings hne htext.assignable).2 seatsText htext
  exact ⟨hne, htext.assignable, htext, hread, fun h => absurd (hcondition.mp h) (by decide)⟩

end DocumentClient.Memory
