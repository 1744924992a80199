import DocumentClient.Proofs.StatementEffects
import DocumentClient.Proofs.UpdateTexts

/-!
# Statements do what their texts say

`StatementText.text` writes an insertion, an update, a deletion or a selection with single spaces
between its words. `performs_text_iff` says that the engine does with the text what is written in
it, as `Store.Performs` puts it, whatever the quoted literals hold, unless the engine takes a part
of an update's assignments for the `WHERE` of a condition. Then it refuses the text.

The readers are followed from the front of the text to its end: each keyword is taken off
(`Writes.dropWord?`), then the name of the class, then the assignments, where `UpdateTexts` says
which texts are cut right.
-/

namespace DocumentClient.Memory

open Text

/-! ## Texts -/

/-- Words with single spaces between them. -/
def unwords (words : List (List Char)) : List Char :=
  [' '].intercalate words

/-- One word is written without spaces. -/
theorem unwords_singleton (word : List Char) : unwords [word] = word :=
  List.intercalate_singleton

/-- A word is parted from the next by one space. -/
theorem unwords_cons (word next : List Char) (words : List (List Char)) :
    unwords (word :: next :: words) = word ++ ' ' :: unwords (next :: words) := by
  rw [unwords, List.intercalate_cons_cons, List.append_assoc]
  rfl

/-- Words begin with the first of them. -/
theorem prefix_unwords (word : List Char) (words : List (List Char)) :
    word <+: unwords (word :: words) := by
  cases words with
  | nil => rw [unwords_singleton]
  | cons next words =>
      rw [unwords_cons]
      exact List.prefix_append word _

/-- The statements about the records of a class. A class is named by a word of any case. -/
inductive StatementText where
  | insert (name : List Char) (first : Equation) (others : List Equation)
  | update (name : List Char) (first : Equation) (others : List Equation)
      (condition : Option Equation)
  | delete (name : List Char) (condition : Option Equation)
  | select (name : List Char) (condition : Option Equation)

namespace StatementText

def className : StatementText → List Char
  | insert name _ _ | update name _ _ _ | delete name _ | select name _ => name

/-- A condition behind a statement. -/
def whereText : Option Equation → List Char
  | none => []
  | some e => ' ' :: unwords ["WHERE".toList, e.text]

/-- A statement as it is documented, with single spaces. -/
def text : StatementText → List Char
  | insert name first others =>
    unwords ["INSERT".toList, "INTO".toList, name, "SET".toList, assignmentsText first others]
  | update name first others condition =>
    unwords ["UPDATE".toList, name, "SET".toList, assignmentsText first others] ++
      whereText condition
  | delete name condition => unwords ["DELETE".toList, "FROM".toList, name] ++ whereText condition
  | select name condition => unwords ["SELECT".toList, "FROM".toList, name] ++ whereText condition

end StatementText

/-! ## Keywords -/

/-- The word is the keyword in some case. -/
structure Writes (word keyword : String) : Prop where
  ne_nil : word.toList ≠ []
  not_blank : word.toList.any isBlank = false
  fold : word.toList.map fold = keyword.toList

/-- The words of the statements, each of them written in capitals. -/
theorem writes_insert : Writes "INSERT" "insert" := ⟨by decide, by decide, by decide⟩

theorem writes_into : Writes "INTO" "into" := ⟨by decide, by decide, by decide⟩

theorem writes_update : Writes "UPDATE" "update" := ⟨by decide, by decide, by decide⟩

theorem writes_set : Writes "SET" "set" := ⟨by decide, by decide, by decide⟩

theorem writes_delete : Writes "DELETE" "delete" := ⟨by decide, by decide, by decide⟩

theorem writes_select : Writes "SELECT" "select" := ⟨by decide, by decide, by decide⟩

theorem writes_from : Writes "FROM" "from" := ⟨by decide, by decide, by decide⟩

theorem writes_where : Writes "WHERE" "where" := ⟨by decide, by decide, by decide⟩

section

variable {keyword word : String} {rest : List Char}

/-- A written keyword has no blank at its start. -/
theorem Writes.trimStart_append (h : Writes word keyword) (rest : List Char) :
    trimStart (word.toList ++ rest) = word.toList ++ rest := by
  have hblank : ∀ c ∈ word.toList, isBlank c = false := fun c hc =>
    Bool.eq_false_iff.mpr (List.any_eq_false.mp h.not_blank c hc)
  exact trimStart_word_append h.ne_nil hblank rest

/-- A text that begins with a word has no blanks in front. -/
theorem Writes.trimStart_of_prefix {text : List Char} (h : Writes word keyword)
    (hstarts : word.toList <+: text) : trimStart text = text := by
  obtain ⟨rest, rfl⟩ := hstarts
  exact h.trimStart_append rest

/-- A word and the space after it are dropped. -/
theorem Writes.dropWord? (h : Writes word keyword) (hrest : trimStart rest = rest) :
    dropWord? keyword (word.toList ++ ' ' :: rest) = some rest := by
  have hkeyword : dropKeyword? keyword.toList (word.toList ++ ' ' :: rest) = some (' ' :: rest) :=
    dropKeyword?_eq_some_iff.mpr ⟨word.toList, rfl, h.fold⟩
  rw [Text.dropWord?, hkeyword, Option.bind_some, dropBlanks?, if_pos isBlank_space, hrest]

/-- A word between two spaces is dropped with them. -/
theorem Writes.dropInnerWord? (h : Writes word keyword) (hrest : trimStart rest = rest) :
    dropInnerWord? keyword (' ' :: (word.toList ++ ' ' :: rest)) = some rest := by
  rw [Text.dropInnerWord?, dropBlanks?, if_pos isBlank_space, h.trimStart_append, Option.bind_some,
    h.dropWord? hrest]

/-- A keyword that starts with another letter is another keyword. -/
theorem Writes.dropWord?_eq_none {other : String} (h : Writes word keyword)
    (hother : other.toList ≠ []) (hne : keyword.toList.head? ≠ other.toList.head?)
    (rest : List Char) : Text.dropWord? other (word.toList ++ rest) = none := by
  obtain ⟨c, letters, hc⟩ := List.exists_cons_of_ne_nil h.ne_nil
  obtain ⟨k, others, hk⟩ := List.exists_cons_of_ne_nil hother
  have hletter : Text.fold c ≠ k := by
    rintro rfl
    rw [← h.fold, hc, hk] at hne
    exact hne rfl
  rw [Text.dropWord?, hc, hk, List.cons_append, dropKeyword?, if_neg hletter]
  rfl

end

/-! ## The ends of a statement -/

/-- The text ends in a character that is trimmed off no statement. -/
def EndsInStatement (text : List Char) : Prop :=
  ∃ front last, text = front ++ [last] ∧ isBlank last = false ∧ last ≠ ';'

/-- A text in front does not change how a statement ends. -/
theorem EndsInStatement.append {text : List Char} (h : EndsInStatement text) (front : List Char) :
    EndsInStatement (front ++ text) := by
  obtain ⟨middle, last, rfl, hlast⟩ := h
  exact ⟨front ++ middle, last, (List.append_assoc _ _ _).symm, hlast⟩

/-- A text without blanks and semicolons has an end that stays. -/
theorem endsInStatement_of_forall {text : List Char} (hne : text ≠ [])
    (h : ∀ c ∈ text, isBlank c = false ∧ c ≠ ';') : EndsInStatement text :=
  ⟨text.dropLast, text.getLast hne, (List.dropLast_append_getLast hne).symm,
    h _ (List.getLast_mem hne)⟩

/-- A name ends in a character that no trimming takes. -/
theorem endsInStatement_of_isName {name : List Char} (h : IsName name) :
    EndsInStatement name := by
  refine endsInStatement_of_forall h.ne_nil fun c hc => ⟨h.not_blank c hc, ?_⟩
  rintro rfl
  exact h.not_mem (by decide +kernel) hc

/-- A literal does, too: a quote, a digit or a letter. -/
theorem endsInStatement_of_spells {literal : List Char} {value : Value}
    (h : Spells literal value) : EndsInStatement literal := by
  rcases h.quoted_or_plain with ⟨body, rfl, -, -⟩ | hplain
  · exact ⟨'\x27' :: body, '\x27', rfl, by decide, by decide⟩
  · refine endsInStatement_of_forall hplain.ne_nil fun c hc => ⟨hplain.not_blank c hc, ?_⟩
    rintro rfl
    exact hplain.not_mem (by decide +kernel) hc

/-- An equation ends in its literal. -/
theorem Equation.endsInStatement_text (e : Equation) : EndsInStatement e.text := by
  have hliteral := (endsInStatement_of_spells e.spells).append (e.name ++ [' ', '=', ' '])
  rwa [List.append_assoc] at hliteral

/-- Assignments end in the last equation. -/
theorem endsInStatement_assignmentsText (first : Equation) (others : List Equation) :
    EndsInStatement (assignmentsText first others) := by
  induction others generalizing first with
  | nil =>
      rw [assignmentsText, List.flatMap_nil, List.append_nil]
      exact first.endsInStatement_text
  | cons next others ih =>
      rw [assignmentsText_cons]
      exact ((ih next).append [',', ' ']).append first.text

/-- A condition ends in its equation, and where there is none the text keeps its end. -/
theorem EndsInStatement.append_whereText {text : List Char} (h : EndsInStatement text)
    (condition : Option Equation) :
    EndsInStatement (text ++ StatementText.whereText condition) := by
  cases condition with
  | none => rwa [StatementText.whereText, List.append_nil]
  | some e =>
      rw [StatementText.whereText, unwords_cons, unwords_singleton]
      exact ((e.endsInStatement_text.append [' ']).append (' ' :: "WHERE".toList)).append text

/-- Words end like the last of them. -/
theorem EndsInStatement.unwords {last : List Char} (h : EndsInStatement last)
    (words : List (List Char)) : EndsInStatement (unwords (words ++ [last])) := by
  obtain ⟨front, hfront⟩ := intercalate_concat [' '] words
  rw [Memory.unwords, hfront]
  exact h.append front

/-- Nothing is trimmed off a statement. -/
theorem Store.statementText_eq_self {text : List Char} (hstart : trimStart text = text)
    (h : EndsInStatement text) : statementText text = text := by
  obtain ⟨front, last, htext, hlast, hsemicolon⟩ := h
  have hend : endsBlank text = false := by
    rw [htext, endsBlank_append_cons front hlast]
    rfl
  have htrim : trim text = text := by
    rw [trim, hstart, (trimEnd_eq_self_iff _).mpr hend]
  have hkept : (text.reverse.dropWhile (· == ';')).reverse = text := by
    rw [htext]
    simp [hsemicolon]
  rw [statementText, htrim, hkept, htrim]

/-- The end of a statement is never trimmed. -/
theorem StatementText.endsInStatement_text (statement : StatementText)
    (hname : IsName statement.className) : EndsInStatement statement.text := by
  have hclass := endsInStatement_of_isName hname
  cases statement with
  | insert name first others =>
      exact (endsInStatement_assignmentsText first others).unwords
        ["INSERT".toList, "INTO".toList, name, "SET".toList]
  | update name first others condition =>
      exact ((endsInStatement_assignmentsText first others).unwords
        ["UPDATE".toList, name, "SET".toList]).append_whereText condition
  | delete name condition =>
      exact (hclass.unwords ["DELETE".toList, "FROM".toList]).append_whereText condition
  | select name condition =>
      exact (hclass.unwords ["SELECT".toList, "FROM".toList]).append_whereText condition

/-! ## Reading a statement -/

/-- A name is read up to the space after it. -/
theorem readName?_append_space {name : List Char} (h : IsName name) (rest : List Char) :
    readName? (name ++ ' ' :: rest) = some (name, ' ' :: rest) := by
  refine readName?_append h ?_
  rintro c hc
  obtain rfl := Option.mem_some.mp hc
  exact not_isWord_of_isBlank (by decide)

namespace Statement

/-- A clause on one line is all of the rest. -/
theorem clause?_eq_self {text : List Char} (hne : text ≠ []) (hline : '\n' ∉ text) :
    clause? text = some text := by
  rw [clause?, if_neg (by simp [hne, hline])]

/-- A text that does not start with `CREATE` is read as a statement about records. -/
theorem read?_of_not_create {text : List Char} (h : dropWord? "create" text = none) :
    read? text = ((readInsert? text).or <| (readUpdate? text).or <| (readDelete? text).or <|
      readSelect? text) := by
  simp only [read?, readCreateClass?, readCreateProperty?, readCreateIndex?, h, bind,
    Option.bind_none, Option.none_or]

/-- A text that does not begin with `INSERT` is no insertion. -/
theorem readInsert?_of_none {text : List Char} (h : dropWord? "insert" text = none) :
    readInsert? text = none := by
  simp only [readInsert?, h, bind, Option.bind_none]

/-- A text that does not begin with `UPDATE` is no update. -/
theorem readUpdate?_of_none {text : List Char} (h : dropWord? "update" text = none) :
    readUpdate? text = none := by
  simp only [readUpdate?, h, bind, Option.bind_none]

/-- A text that does not begin with `DELETE` is no deletion. -/
theorem readDelete?_of_none {text : List Char} (h : dropWord? "delete" text = none) :
    readDelete? text = none := by
  simp only [readDelete?, h, bind, Option.bind_none]

/-- A written condition is read, and none is where none was written. -/
theorem optionalWhere?_whereText {condition : Option Equation}
    (hline : '\n' ∉ StatementText.whereText condition) :
    optionalWhere? (StatementText.whereText condition) = some (condition.map Equation.text) := by
  cases condition with
  | none => rfl
  | some e =>
      rw [StatementText.whereText, unwords_cons, unwords_singleton] at hline ⊢
      have hstart : trimStart e.text = e.text := e.isName.trimStart_append _
      have hkeyword := writes_where.dropInnerWord? hstart
      have hne : e.text ≠ [] := by simp [Equation.text]
      have hfree : '\n' ∉ e.text := by
        intro hmem
        exact hline (List.mem_cons_of_mem _ (List.mem_append_right _ (List.mem_cons_of_mem _ hmem)))
      show (whereClause? _).map some = _
      rw [whereClause?_of_some hkeyword hne hfree]
      rfl

/-- Assignments begin with a name, so nothing is trimmed off their start. -/
theorem trimStart_assignmentsText (first : Equation) (others : List Equation) (tail : List Char) :
    trimStart (assignmentsText first others ++ tail) = assignmentsText first others ++ tail := by
  obtain ⟨more, hmore⟩ := assignmentsText_append first others tail
  rw [hmore, first.isName.trimStart_append]

variable {name : List Char}

/-- An insertion on one line is read back. -/
theorem read?_insert (hname : IsName name) (first : Equation) (others : List Equation)
    (hline : '\n' ∉ assignmentsText first others) :
    read? (unwords ["INSERT".toList, "INTO".toList, name, "SET".toList,
      assignmentsText first others]) =
      some (.insert (String.ofList name) (assignmentsText first others)) := by
  have hne : assignmentsText first others ≠ [] := by simp [assignmentsText, Equation.text]
  have hstart := trimStart_assignmentsText first others []
  rw [List.append_nil] at hstart
  simp only [unwords_cons, unwords_singleton]
  rw [read?_of_not_create (writes_insert.dropWord?_eq_none (by decide) (by decide) _)]
  simp only [readInsert?, writes_insert.dropWord? (writes_into.trimStart_append _),
    writes_into.dropWord? (hname.trimStart_append _), readName?_append_space hname,
    writes_set.dropInnerWord? hstart, clause?_eq_self hne hline, bind, Option.bind_some, pure,
    Option.some_or]

/-- An update is taken apart where the search for a condition cuts it. -/
theorem read?_update (hname : IsName name) {first : Equation} {others : List Equation}
    {tail front : List Char} {condition : Option (List Char)}
    (hcut : cutWhere? (assignmentsText first others ++ tail) = some (front, condition)) :
    read? (unwords ["UPDATE".toList, name, "SET".toList, assignmentsText first others] ++ tail) =
      some (.update (String.ofList name) front condition) := by
  have hkeyword : ∀ rest, dropKeyword? "set".toList ("SET".toList ++ ' ' :: rest) =
      some (' ' :: rest) := by
    intro rest
    exact dropKeyword?_eq_some_iff.mpr ⟨_, rfl, writes_set.fold⟩
  have hassignments : cutUpdate? (' ' :: (assignmentsText first others ++ tail)) =
      some (front, condition) := by
    simp only [cutUpdate?, dropBlanks?, if_pos isBlank_space, trimStart_assignmentsText, hcut, bind,
      Option.bind_some, Option.some_or]
  simp only [unwords_cons, unwords_singleton, List.append_assoc, List.cons_append]
  rw [read?_of_not_create (writes_update.dropWord?_eq_none (by decide) (by decide) _),
    readInsert?_of_none (writes_update.dropWord?_eq_none (by decide) (by decide) _)]
  simp only [readUpdate?, writes_update.dropWord? (hname.trimStart_append _),
    readName?_append_space hname, dropBlanks?, if_pos isBlank_space, writes_set.trimStart_append,
    hkeyword, hassignments, bind, Option.bind_some, pure, Option.none_or, Option.some_or]

/-- The name of a class ends before the condition. -/
theorem readName?_append_whereText (hname : IsName name) (condition : Option Equation) :
    readName? (name ++ StatementText.whereText condition) =
      some (name, StatementText.whereText condition) := by
  cases condition with
  | none => exact readName?_append hname fun c hc => nomatch hc
  | some e => exact readName?_append_space hname _

/-- A deletion on one line is read back. -/
theorem read?_delete (hname : IsName name) {condition : Option Equation}
    (hline : '\n' ∉ StatementText.whereText condition) :
    read? (unwords ["DELETE".toList, "FROM".toList, name] ++ StatementText.whereText condition) =
      some (.delete (String.ofList name) (condition.map Equation.text)) := by
  simp only [unwords_cons, unwords_singleton, List.append_assoc, List.cons_append]
  rw [read?_of_not_create (writes_delete.dropWord?_eq_none (by decide) (by decide) _),
    readInsert?_of_none (writes_delete.dropWord?_eq_none (by decide) (by decide) _),
    readUpdate?_of_none (writes_delete.dropWord?_eq_none (by decide) (by decide) _)]
  simp only [readDelete?, writes_delete.dropWord? (writes_from.trimStart_append _),
    writes_from.dropWord? (hname.trimStart_append _), readName?_append_whereText hname,
    optionalWhere?_whereText hline, bind, Option.bind_some, pure, Option.none_or, Option.some_or]

/-- A selection on one line is read back. -/
theorem read?_select (hname : IsName name) {condition : Option Equation}
    (hline : '\n' ∉ StatementText.whereText condition) :
    read? (unwords ["SELECT".toList, "FROM".toList, name] ++ StatementText.whereText condition) =
      some (.select (String.ofList name) (condition.map Equation.text)) := by
  simp only [unwords_cons, unwords_singleton, List.append_assoc, List.cons_append]
  rw [read?_of_not_create (writes_select.dropWord?_eq_none (by decide) (by decide) _),
    readInsert?_of_none (writes_select.dropWord?_eq_none (by decide) (by decide) _),
    readUpdate?_of_none (writes_select.dropWord?_eq_none (by decide) (by decide) _),
    readDelete?_of_none (writes_select.dropWord?_eq_none (by decide) (by decide) _)]
  simp only [readSelect?, writes_select.dropWord? (writes_from.trimStart_append _),
    writes_from.dropWord? (hname.trimStart_append _), readName?_append_whereText hname,
    optionalWhere?_whereText hline, bind, Option.bind_some, pure, Option.none_or]

end Statement

/-! ## Texts and their meaning -/

/-- A condition is read with the meaning it was written for. -/
theorem readCondition?_map_text (condition : Option Equation) :
    Store.readCondition? (condition.map Equation.text) =
      .ok (condition.map Equation.assignment) := by
  cases condition with
  | none => rfl
  | some e =>
      show some <$> readCondition e.text = _
      rw [readCondition_text]
      rfl

namespace StatementText

/-- Nothing is trimmed off the text of a statement. -/
theorem statementText_text (text : StatementText) (hname : IsName text.className) :
    Store.statementText text.text = text.text := by
  have hends := text.endsInStatement_text hname
  cases text with
  | insert name first others =>
      have hword : "INSERT".toList <+: text (.insert name first others) := prefix_unwords _ _
      exact Store.statementText_eq_self (writes_insert.trimStart_of_prefix hword) hends
  | update name first others condition =>
      have hword : "UPDATE".toList <+: text (.update name first others condition) :=
        (prefix_unwords _ _).trans (List.prefix_append _ (whereText condition))
      exact Store.statementText_eq_self (writes_update.trimStart_of_prefix hword) hends
  | delete name condition =>
      have hword : "DELETE".toList <+: text (.delete name condition) :=
        (prefix_unwords _ _).trans (List.prefix_append _ (whereText condition))
      exact Store.statementText_eq_self (writes_delete.trimStart_of_prefix hword) hends
  | select name condition =>
      have hword : "SELECT".toList <+: text (.select name condition) :=
        (prefix_unwords _ _).trans (List.prefix_append _ (whereText condition))
      exact Store.statementText_eq_self (writes_select.trimStart_of_prefix hword) hends

/-- A character outside an insertion is outside its assignments. -/
theorem not_mem_of_insert {name : List Char} {first : Equation} {others : List Equation} {c : Char}
    (h : c ∉ text (.insert name first others)) : c ∉ assignmentsText first others := by
  obtain ⟨front, hfront⟩ := intercalate_concat [' ']
    ["INSERT".toList, "INTO".toList, name, "SET".toList]
  have htext : text (.insert name first others) = front ++ assignmentsText first others :=
    hfront (assignmentsText first others)
  exact fun hmem => h (htext ▸ List.mem_append_right _ hmem)

/-- A character outside an update is outside its assignments and its condition. -/
theorem not_mem_of_update {name : List Char} {first : Equation} {others : List Equation}
    {condition : Option Equation} {c : Char} (h : c ∉ text (.update name first others condition)) :
    c ∉ assignmentsText first others ++ whereText condition := by
  obtain ⟨front, hfront⟩ := intercalate_concat [' '] ["UPDATE".toList, name, "SET".toList]
  have htext : text (.update name first others condition) =
      front ++ (assignmentsText first others ++ whereText condition) := by
    rw [← List.append_assoc, ← hfront]
    rfl
  exact fun hmem => h (htext ▸ List.mem_append_right _ hmem)

/-- What a statement says. -/
def meaning : StatementText → DataStatement
  | insert _ first others => .insert ((first :: others).map Equation.assignment)
  | update _ first others condition =>
    .update ((first :: others).map Equation.assignment) (condition.map Equation.assignment)
  | delete _ condition => .delete (condition.map Equation.assignment)
  | select _ condition => .select (condition.map Equation.assignment)

/-- A part of the assignments of an update is taken for the `WHERE` of a condition. -/
def IsMisread : StatementText → Prop
  | update _ first others _ => Statement.Misread first others
  | _ => False

end StatementText

namespace Store

variable {s : Store} {className : String} {name : List Char} {condition : Option Equation}

/-- A statement's text is applied as the statement it is read as. -/
theorem apply_text {text : StatementText} {statement : Statement} (hname : IsName text.className)
    (h : Statement.read? text.text = some statement) : s.apply text.text = s.run statement :=
  apply_of_read (by rw [text.statementText_text hname, h])

/-- An update is refused if its assignments or its condition cannot be read. -/
theorem run_update_unread {name : String} {front back : List Char}
    (hclass : s.className name = .ok className)
    (h : (∃ message, readAssignments front = .error (.parse message)) ∨
      ∃ rest, back = '=' :: rest) :
    ∃ message, s.run (.update name front (some back)) = (.error (.parse message), s) := by
  cases hfront : readAssignments front with
  | error error =>
      obtain ⟨message, rfl⟩ := readAssignments_error hfront
      exact ⟨message, by simp only [run, hclass, hfront, bind, Except.bind]⟩
  | ok assignments =>
      rw [hfront] at h
      rcases h with ⟨message, hmessage⟩ | ⟨rest, rfl⟩
      · cases hmessage
      · obtain ⟨message, hmessage⟩ := readAssignments_equals rest
        have hback : readCondition? (some ('=' :: rest)) = .error (.parse message) := by
          show some <$> readCondition ('=' :: rest) = _
          rw [readCondition, hmessage]
          rfl
        exact ⟨message, by simp only [run, hclass, hfront, hback, bind, Except.bind]⟩

/-- An update that is cut too early is refused. -/
theorem apply_misread {first : Equation} {others : List Equation} (hname : IsName name)
    (hclass : s.className (String.ofList name) = .ok className)
    (hline : '\n' ∉ StatementText.text (.update name first others condition))
    (hread : Statement.Misread first others) :
    ∃ message, s.apply (StatementText.text (.update name first others condition)) =
      (.error (.parse message), s) := by
  obtain ⟨front, back, hcut, hfault⟩ :=
    Statement.cutWhere?_misread hread (StatementText.not_mem_of_update hline)
  have hrun : s.apply (StatementText.text (.update name first others condition)) =
      s.run (.update (String.ofList name) front (some back)) :=
    apply_text hname (Statement.read?_update hname hcut)
  rw [hrun]
  exact run_update_unread hclass hfault

/-- A statement is performed as it is written if no part of it is taken for a `WHERE`. -/
theorem performs_text {text : StatementText} (hname : IsName text.className)
    (hclass : s.className (String.ofList text.className) = .ok className)
    (hline : '\n' ∉ text.text) (hread : ¬ text.IsMisread) :
    s.Performs className text.meaning (s.apply text.text).1 (s.apply text.text).2 := by
  cases text with
  | insert name first others =>
      have hassignments := StatementText.not_mem_of_insert hline
      rw [apply_text hname (Statement.read?_insert hname first others hassignments)]
      exact performs_insert hclass (readAssignments_assignmentsText first others)
  | update name first others condition =>
      have hfree := StatementText.not_mem_of_update hline
      obtain ⟨hassignments, hcondition⟩ := not_or.mp (mt List.mem_append.mpr hfree)
      have hcut := Statement.cutWhere?_assignmentsText hread hassignments
        (Statement.optionalWhere?_whereText hcondition)
      rw [apply_text hname (Statement.read?_update hname hcut)]
      exact performs_update hclass (readAssignments_assignmentsText first others)
        (readCondition?_map_text condition)
  | delete name condition =>
      have hcondition : '\n' ∉ StatementText.whereText condition := fun hmem =>
        hline (List.mem_append_right _ hmem)
      rw [apply_text hname (Statement.read?_delete hname hcondition)]
      exact performs_delete hclass (readCondition?_map_text condition)
  | select name condition =>
      have hcondition : '\n' ∉ StatementText.whereText condition := fun hmem =>
        hline (List.mem_append_right _ hmem)
      rw [apply_text hname (Statement.read?_select hname hcondition)]
      exact performs_select hclass (readCondition?_map_text condition)

/-- The engine does with the text of a statement what the statement says, unless it takes a part of
the text for the `WHERE` of a condition. Then it refuses the text and leaves the store as it was. -/
theorem performs_text_iff (s : Store) (text : StatementText) {className : String}
    (hname : IsName text.className)
    (hclass : s.className (String.ofList text.className) = .ok className)
    (hline : '\n' ∉ text.text) :
    (s.Performs className text.meaning (s.apply text.text).1 (s.apply text.text).2 ↔
      ¬ text.IsMisread) ∧
    (text.IsMisread → ∃ message, s.apply text.text = (.error (.parse message), s)) := by
  have hrefused : text.IsMisread → ∃ message, s.apply text.text = (.error (.parse message), s) := by
    cases text with
    | update name first others condition => exact apply_misread hname hclass hline
    | insert | delete | select => exact False.elim
  refine ⟨⟨?_, performs_text hname hclass hline⟩, hrefused⟩
  intro hperforms hread
  obtain ⟨message, hmessage⟩ := hrefused hread
  exact hperforms.ne_parse message (congrArg Prod.fst hmessage)

/-- The equation of a field with a quoted text. -/
def quotedEquation (name body : List Char) (hname : IsName name) (hbody : '\x27' ∉ body) :
    Equation where
  name := name
  literal := '\x27' :: body ++ ['\x27']
  value := .string (String.ofList body)
  isName := hname
  spells := .quoted body hbody

/-- An update with an unquoted `WHERE` and a quoted one that no blank follows. -/
def goWhere : StatementText :=
  .update "t".toList
    (quotedEquation "b".toList "go WHERE".toList (by decide +kernel) (by decide))
    [⟨"b".toList, "Null".toList, .null, by decide +kernel, .null _ (by decide)⟩]
    (some ⟨"a".toList, "+2".toList, .int64 2, by decide +kernel,
      .integer _ 2 (.plus ['2'] (by decide) (List.all_eq_true.mp (by decide)))⟩)

/-- A literal may end in `WHERE`: only with a blank behind it is the word taken for a
condition's. -/
theorem performs_goWhere :
    goWhere.text = "UPDATE t SET b = 'go WHERE', b = Null WHERE a = +2".toList ∧
      numbered.store.Performs "T" goWhere.meaning (numbered.store.apply goWhere.text).1
        (numbered.store.apply goWhere.text).2 := by
  have htext : goWhere.text = "UPDATE t SET b = 'go WHERE', b = Null WHERE a = +2".toList := by
    decide +kernel
  have hname : IsName goWhere.className := by decide +kernel
  have hclass : numbered.store.className (String.ofList goWhere.className) = .ok "T" := by
    decide +kernel
  have hline : '\n' ∉ goWhere.text := by decide +kernel
  have hread : ¬ goWhere.IsMisread := by
    show ¬ Statement.Misread _ _
    decide +kernel
  exact ⟨htext, (performs_text_iff numbered.store goWhere hname hclass hline).1.mpr hread⟩

/-- With a blank behind it, the quoted `WHERE` is taken for that of a condition. -/
theorem quoted_where_refused :
    let s := numbered.store
    let text : StatementText := .update "T".toList
      (quotedEquation "b".toList "go WHERE you = 1".toList (by decide +kernel) (by decide)) [] none
    text.text = "UPDATE T SET b = 'go WHERE you = 1'".toList ∧ s.className "T" = .ok "T" ∧
      ¬ s.Performs "T" text.meaning (s.apply text.text).1 (s.apply text.text).2 := by
  intro s text
  have hclass : s.className "T" = .ok "T" := by decide +kernel
  have hanswer : (s.apply text.text).1.map (fun _ => ()) =
      .error (.parse "Invalid literal ''go'") := by
    decide +kernel
  refine ⟨by decide +kernel, hclass, fun hperforms => ?_⟩
  cases hresult : (s.apply text.text).1 with
  | ok outcome =>
      rw [hresult] at hanswer
      cases hanswer
  | error error =>
      rw [hresult] at hanswer hperforms
      obtain rfl := Except.error.inj hanswer
      exact hperforms.ne_parse _ rfl

end Store

end DocumentClient.Memory
