import DocumentClient.Proofs.UpdateTexts

/-!
# What the readers of commands stand for

The readers of commands are written by hand for regular expressions. Each statement here gives the
expression and says that its reader matches the same texts and captures the same parts of them.
Where an expression matches a text in more than one way, what counts is the way that is tried first:
of a repetition the longest run that leads to a match, of a lazy one the shortest.

The order matters for the clauses of an update only. `Statement.cutUpdate?_isFirst` says that the
reader finds the first way to match them, and none exactly if there is none.
-/

namespace DocumentClient

namespace Text

variable {text rest word body condition : List Char} {name : String}

/-! ## Blanks and keywords -/

/-- The texts that `\s+` matches. -/
def IsBlanks (run : List Char) : Prop :=
  run ≠ [] ∧ AllBlank run

/-- Blanks at the start of a text are dropped up to a text that starts with none. -/
theorem IsBlanks.trimStart_append {run : List Char} (h : IsBlanks run)
    (hbody : trimStart body = body) : trimStart (run ++ body) = body := by
  rw [h.2.trimStart_append, hbody]

/-- A text with blanks at its start does not stay as it is when they are dropped. -/
theorem IsBlanks.trimStart_ne {run : List Char} (h : IsBlanks run) (rest : List Char) :
    trimStart (run ++ rest) ≠ run ++ rest := by
  obtain ⟨c, run, rfl⟩ := List.exists_cons_of_ne_nil h.1
  intro hstart
  have hc := not_blank_of_trimStart hstart
  rw [h.2 c List.mem_cons_self] at hc
  cases hc

/-- Blanks end in a blank. -/
theorem IsBlanks.endsBlank_eq {run : List Char} (h : IsBlanks run) : endsBlank run = true := by
  rw [endsBlank, List.getLast?_eq_some_getLast h.1, Option.any_some, h.2 _ (List.getLast_mem h.1)]

/-- The expression `\s+`, whose run is as long as it can be. -/
theorem dropBlanks?_eq_some_iff : dropBlanks? text = some rest ↔
    ∃ run, text = run ++ rest ∧ IsBlanks run ∧ trimStart rest = rest := by
  constructor
  · intro h
    obtain ⟨c, tail, rfl, hc, rfl⟩ := dropBlanks?_eq_some h
    refine ⟨c :: tail.takeWhile isBlank, ?_, ⟨List.cons_ne_nil _ _, ?_⟩,
      List.dropWhile_idempotent isBlank tail⟩
    · rw [List.cons_append, trimStart, List.takeWhile_append_dropWhile]
    · exact List.forall_mem_cons.mpr ⟨hc, fun d hd => List.mem_takeWhile_imp hd⟩
  · rintro ⟨run, rfl, ⟨hne, hrun⟩, hrest⟩
    obtain ⟨c, run, rfl⟩ := List.exists_cons_of_ne_nil hne
    obtain ⟨hc, hrun⟩ := List.forall_mem_cons.mp hrun
    rw [List.cons_append, dropBlanks?, if_pos hc, AllBlank.trimStart_append hrun, hrest]

/-- The expression `(?i)^NAME\s+`. -/
theorem dropWord?_eq_some_iff : dropWord? name text = some rest ↔
    ∃ word run, text = word ++ (run ++ rest) ∧ word.map fold = name.toList ∧ IsBlanks run ∧
      trimStart rest = rest := by
  simp only [dropWord?, Option.bind_eq_some_iff, dropKeyword?_eq_some_iff, dropBlanks?_eq_some_iff]
  constructor
  · rintro ⟨_, ⟨word, rfl, hword⟩, run, rfl, hrun, hrest⟩
    exact ⟨word, run, rfl, hword, hrun, hrest⟩
  · rintro ⟨word, run, rfl, hword, hrun, hrest⟩
    exact ⟨_, ⟨word, rfl, hword⟩, run, rfl, hrun, hrest⟩

end Text

open Text

/-! ## Schema changes -/

/-- The expression `(?i)^(CREATE|DROP|ALTER)\s+(CLASS|PROPERTY|INDEX|DATABASE)(\s|$)`. -/
theorem Command.changesSchema_iff {text : List Char} : changesSchema text = true ↔
    ∃ verb ∈ schemaVerbs, ∃ noun ∈ schemaNouns, ∃ first run second rest,
      text = first ++ (run ++ (second ++ rest)) ∧ first.map fold = verb.toList ∧ IsBlanks run ∧
        second.map fold = noun.toList ∧ endsWord rest = true := by
  simp only [changesSchema, startsWithNoun, List.any_eq_true, Option.any_eq_true,
    dropWord?_eq_some_iff, dropKeyword?_eq_some_iff]
  constructor
  · rintro ⟨verb, hverb, _, ⟨first, run, rfl, hfirst, hrun, -⟩, noun, hnoun, rest,
      ⟨second, rfl, hsecond⟩, hend⟩
    exact ⟨verb, hverb, noun, hnoun, first, run, second, rest, rfl, hfirst, hrun, hsecond, hend⟩
  · rintro ⟨verb, hverb, noun, hnoun, first, run, second, rest, rfl, hfirst, hrun, hsecond, hend⟩
    have hnonempty : second ≠ [] := by
      rintro rfl
      exact (show ∀ noun ∈ schemaNouns, noun.toList ≠ [] by decide) noun hnoun hsecond.symm
    have hblank := not_blank_of_map_fold (schemaNouns_not_blank noun hnoun) hsecond
    have hstart := trimStart_word_append hnonempty hblank rest
    exact ⟨verb, hverb, _, ⟨first, run, rfl, hfirst, hrun, hstart⟩,
      noun, hnoun, rest, ⟨second, rfl, hsecond⟩, hend⟩

namespace Memory.Statement

variable {text body condition : List Char}

/-! ## Conditions -/

/-- The texts that `.+` matches. -/
def IsClause (text : List Char) : Prop :=
  text ≠ [] ∧ '\n' ∉ text

/-- A clause holds more than line feeds. -/
theorem IsClause.exists_ne (h : IsClause text) : ∃ c ∈ text, c ≠ '\n' := by
  obtain ⟨c, rest, rfl⟩ := List.exists_cons_of_ne_nil h.1
  exact ⟨c, List.mem_cons_self, fun hc => h.2 (hc ▸ List.mem_cons_self)⟩

/-- The expression `(.+)$`. -/
theorem clause?_eq_some_iff {rest : List Char} :
    clause? text = some rest ↔ text = rest ∧ IsClause text := by
  simp [clause?, IsClause, and_comm]

/-- The expression `(?i)WHERE\s+(.+)$` matches the text and captures the condition. -/
def IsCondition (text condition : List Char) : Prop :=
  ∃ word run, text = word ++ (run ++ condition) ∧ IsWhere word ∧ IsBlanks run ∧ IsClause condition

/-- The expression `(?i)\s+WHERE\s+(.+)$` matches the text and captures the condition. -/
def IsWhereClause (text condition : List Char) : Prop :=
  ∃ run rest, text = run ++ rest ∧ IsBlanks run ∧ IsCondition rest condition

/-- A condition starts with the keyword, and not with a blank. -/
theorem IsCondition.trimStart_eq (h : IsCondition text condition) : trimStart text = text := by
  obtain ⟨word, run, rfl, hword, -, -⟩ := h
  exact trimStart_word_append hword.ne_nil hword.not_blank _

/-- Which blanks stand before the keyword makes no difference. -/
theorem isWhereClause_append_iff {run : List Char} (hrun : IsBlanks run)
    (hbody : trimStart body = body) :
    IsWhereClause (run ++ body) condition ↔ IsCondition body condition := by
  constructor
  · rintro ⟨other, rest, htext, hother, hrest⟩
    have hstart := congrArg trimStart htext
    rw [hrun.trimStart_append hbody, hother.trimStart_append hrest.trimStart_eq] at hstart
    exact hstart ▸ hrest
  · exact fun h => ⟨run, body, rfl, hrun, h⟩

/-- More blanks can stand in front. -/
theorem IsWhereClause.cons {c : Char} (h : IsWhereClause text condition) (hc : isBlank c = true) :
    IsWhereClause (c :: text) condition := by
  obtain ⟨run, rest, rfl, ⟨-, hrun⟩, hrest⟩ := h
  exact ⟨c :: run, rest, rfl, ⟨List.cons_ne_nil _ _, List.forall_mem_cons.mpr ⟨hc, hrun⟩⟩, hrest⟩

/-- The reader captures as little as it can, which is what the greedy blanks leave. -/
theorem whereClause?_eq_some_iff : whereClause? text = some condition ↔
    IsWhereClause text condition ∧ trimStart condition = condition := by
  simp only [whereClause?, dropInnerWord?, Option.bind_eq_some_iff, dropBlanks?_eq_some_iff,
    dropWord?_eq_some_iff, clause?_eq_some_iff]
  constructor
  · rintro ⟨_, ⟨_, ⟨run, rfl, hrun, -⟩, word, after, rfl, hword, hafter, hrest⟩, rfl, hclause⟩
    exact ⟨⟨run, _, rfl, hrun, word, after, rfl, hword, hafter, hclause⟩, hrest⟩
  · rintro ⟨⟨run, rest, rfl, hrun, hcondition⟩, hstart⟩
    have hrest := hcondition.trimStart_eq
    obtain ⟨word, after, rfl, hword, hafter, hclause⟩ := hcondition
    exact ⟨condition, ⟨_, ⟨run, rfl, hrun, hrest⟩, word, after, rfl, hword, hafter, hstart⟩, rfl,
      hclause⟩

/-- If the text does not end in a blank, then every way to capture a condition leads to the one
without blanks in front. -/
theorem IsWhereClause.whereClause?_eq (h : IsWhereClause text condition)
    (hend : endsBlank text = false) : whereClause? text = some (trimStart condition) := by
  obtain ⟨run, rest, rfl, hrun, word, after, rfl, hword, hafter, hne, hline⟩ := h
  have hlast : endsBlank condition = false := by
    rw [← List.append_assoc, ← List.append_assoc, endsBlank_append _ hne] at hend
    exact hend
  have hsplit : condition.takeWhile isBlank ++ trimStart condition = condition :=
    List.takeWhile_append_dropWhile
  have hblanks : AllBlank (condition.takeWhile isBlank) := fun _ hc => List.mem_takeWhile_imp hc
  refine whereClause?_eq_some_iff.mpr ⟨⟨run, _, rfl, hrun, word,
    after ++ condition.takeWhile isBlank, ?_, hword, ⟨?_, ?_⟩, ?_, ?_⟩, ?_⟩
  · rw [List.append_assoc after, hsplit]
  · exact List.append_ne_nil_of_left_ne_nil hafter.1 _
  · exact fun c hc => (List.mem_append.mp hc).elim (hafter.2 c) (hblanks c)
  · -- A condition of blanks would end in a blank.
    intro hnone
    have hall : AllBlank condition := by
      rw [← hsplit, hnone, List.append_nil]
      exact hblanks
    rw [IsBlanks.endsBlank_eq ⟨hne, hall⟩] at hlast
    cases hlast
  · exact fun hmem => hline ((List.dropWhile_suffix isBlank).subset hmem)
  · exact List.dropWhile_idempotent isBlank condition

/-! ## Clauses of an update -/

/-- The assignments of an update, and its condition. -/
abbrev Clauses := List Char × Option (List Char)

/-- The expression `(?:\s+WHERE\s+(.+))?$` matches the text and captures the condition. -/
def IsTail (text : List Char) : Option (List Char) → Prop
  | none => text = []
  | some condition => IsWhereClause text condition

/-- The expression `^(.+?)(?:\s+WHERE\s+(.+))?$` matches the text and captures the clauses. -/
def IsCut (text : List Char) (clauses : Clauses) : Prop :=
  ∃ tail, text = clauses.1 ++ tail ∧ IsClause clauses.1 ∧ IsTail tail clauses.2

/-- How many characters the condition has, if there is one. -/
def conditionLength (condition : Option (List Char)) : Nat :=
  (condition.map List.length).getD 0

/-- The order in which the ways to cut a text are tried: short assignments first, and for the same
assignments many blanks after `WHERE`, so short conditions. -/
def CutLe (first second : Clauses) : Prop :=
  first.1.length < second.1.length ∨
    first.1.length = second.1.length ∧ conditionLength first.2 ≤ conditionLength second.2

/-- What is found is the first of the ways, or there is no way and nothing is found. -/
def IsFirst {α : Type} (le : α → α → Prop) (way : α → Prop) : Option α → Prop
  | some first => way first ∧ ∀ other, way other → le first other
  | none => ∀ other, ¬ way other

/-- After the first character of the text a condition follows. -/
theorem isFirst_cutWhere?_of_some {c : Char} (hc : isBlank c = false)
    (hend : endsBlank (c :: text) = false) (hwhere : whereClause? text = some condition) :
    IsFirst CutLe (IsCut (c :: text)) (some ([c], some condition)) := by
  have hline : c ≠ '\n' := by
    rintro rfl
    exact absurd hc (by decide)
  have htext : text ≠ [] := by
    rintro rfl
    cases hwhere
  have hlast : endsBlank text = false := (endsBlank_append [c] htext).symm.trans hend
  refine ⟨⟨text, rfl, ⟨List.cons_ne_nil _ _, by simpa using Ne.symm hline⟩,
    (whereClause?_eq_some_iff.mp hwhere).1⟩, ?_⟩
  rintro ⟨assignments, other⟩ ⟨tail, htail, ⟨hne, -⟩, hother⟩
  obtain ⟨d, rest, rfl⟩ := List.exists_cons_of_ne_nil hne
  obtain ⟨rfl, rfl⟩ := List.cons.inj htail
  cases rest with
  | cons e rest => exact .inl (by simp)
  | nil =>
      refine .inr ⟨rfl, ?_⟩
      cases other with
      | none => exact absurd hother htext
      | some other =>
          have hsame := (IsWhereClause.whereClause?_eq hother hlast).symm.trans hwhere
          rw [← Option.some.inj hsame]
          exact trimStart_length_le other

/-- Without a condition after its first character, a text is cut where the rest of it is. -/
theorem isFirst_cons {c : Char} {found : Option Clauses} (hc : c ≠ '\n') (hne : text ≠ [])
    (hend : endsBlank (c :: text) = false) (hwhere : whereClause? text = none)
    (h : IsFirst CutLe (IsCut text) found) :
    IsFirst CutLe (IsCut (c :: text)) (found.map fun clauses => (c :: clauses.1, clauses.2)) := by
  have hlast : endsBlank text = false := (endsBlank_append [c] hne).symm.trans hend
  have hrest : ∀ clauses, IsCut (c :: text) clauses →
      ∃ others, clauses = (c :: others.1, others.2) ∧ IsCut text others := by
    rintro ⟨assignments, other⟩ ⟨tail, htail, ⟨hfirst, hline⟩, hother⟩
    obtain ⟨d, rest, rfl⟩ := List.exists_cons_of_ne_nil hfirst
    obtain ⟨rfl, rfl⟩ := List.cons.inj htail
    refine ⟨(rest, other), rfl, tail, rfl, ⟨?_, List.not_mem_of_not_mem_cons hline⟩, hother⟩
    -- If the first character were all, then the text would be the condition.
    rintro rfl
    cases other with
    | none => exact hne hother
    | some other =>
        cases hwhere.symm.trans (IsWhereClause.whereClause?_eq hother hlast)
  cases found with
  | none =>
      intro clauses hclauses
      obtain ⟨others, -, hothers⟩ := hrest clauses hclauses
      exact h others hothers
  | some first =>
      obtain ⟨⟨tail, rfl, ⟨hfirst, hline⟩, htail⟩, hle⟩ := h
      refine ⟨⟨tail, rfl, ⟨List.cons_ne_nil _ _, ?_⟩, htail⟩, fun clauses hclauses => ?_⟩
      · exact List.not_mem_cons_of_ne_of_not_mem (Ne.symm hc) hline
      · obtain ⟨others, rfl, hothers⟩ := hrest clauses hclauses
        simpa [CutLe] using hle others hothers

/-- The reader finds the first cut, if the blanks after its first character have been tried in case
that this one is blank. The induction is on what follows that character. -/
theorem isFirst_cutWhere?_cons {c : Char} {text : List Char}
    (hend : endsBlank (c :: text) = false) (hc : isBlank c = true → whereClause? text = none) :
    IsFirst CutLe (IsCut (c :: text)) (cutWhere? (c :: text)) := by
  induction text generalizing c with
  | nil =>
      have hline : c ≠ '\n' := by
        rintro rfl
        exact absurd hend (by decide)
      have hcut : cutWhere? [c] = some ([c], none) := by
        rw [cutWhere?_cons, if_neg hline]
        cases hblank : isBlank c <;> rfl
      rw [hcut]
      refine ⟨⟨[], rfl, ⟨List.cons_ne_nil _ _, by simpa using Ne.symm hline⟩, rfl⟩, ?_⟩
      rintro ⟨assignments, other⟩ ⟨tail, htail, ⟨hne, -⟩, -⟩
      have hlength := List.length_pos_iff.mpr hne
      rcases Nat.lt_or_eq_of_le hlength with hlt | heq
      · exact .inl hlt
      · exact .inr ⟨heq, Nat.zero_le _⟩
  | cons d text ih =>
      by_cases hline : c = '\n'
      · have hcut : cutWhere? (c :: d :: text) = none := by rw [cutWhere?_cons, if_pos hline]
        rw [hcut]
        rintro ⟨assignments, other⟩ ⟨tail, htail, ⟨hne, hfree⟩, -⟩
        obtain ⟨e, rest, rfl⟩ := List.exists_cons_of_ne_nil hne
        obtain ⟨rfl, -⟩ := List.cons.inj htail
        exact hfree (hline ▸ List.mem_cons_self)
      cases hwhere : whereClause? (d :: text) with
      | some condition =>
          have hfirst : isBlank c = false := by
            refine Bool.eq_false_iff.mpr fun hblank => ?_
            cases (hc hblank).symm.trans hwhere
          rw [cutWhere?_of_some hfirst hwhere]
          exact isFirst_cutWhere?_of_some hfirst hend hwhere
      | none =>
          have hlast : endsBlank (d :: text) = false :=
            (endsBlank_append [c] (List.cons_ne_nil d text)).symm.trans hend
          have hnext : isBlank d = true → whereClause? text = none := by
            intro hd
            by_contra hsome
            obtain ⟨condition, hcondition⟩ := Option.ne_none_iff_exists'.mp hsome
            have hclause := (whereClause?_eq_some_iff.mp hcondition).1.cons hd
            cases hwhere.symm.trans (hclause.whereClause?_eq hlast)
          rw [cutWhere?_of_none hline (List.cons_ne_nil _ _) (.inr hwhere)]
          exact isFirst_cons hline (List.cons_ne_nil _ _) hend hwhere (ih hlast hnext)

/-- The expression `^(.+?)(?:\s+WHERE\s+(.+))?$`, in a text without blanks at its ends. -/
theorem cutWhere?_isFirst (hstart : trimStart text = text) (hend : endsBlank text = false) :
    IsFirst CutLe (IsCut text) (cutWhere? text) := by
  cases text with
  | nil =>
      rintro ⟨assignments, condition⟩ ⟨tail, htail, ⟨hne, -⟩, -⟩
      exact hne (List.append_eq_nil_iff.mp htail.symm).1
  | cons c text =>
      have hc := not_blank_of_trimStart hstart
      refine isFirst_cutWhere?_cons hend fun hblank => ?_
      exact absurd (hc.symm.trans hblank) Bool.false_ne_true

/-! ## Blanks in the place of assignments -/

/-- A way to match `\s+(.+?)(?:\s+WHERE\s+(.+))?$`, what stands behind the `SET` of an update. -/
structure Way where
  blanks : List Char
  clauses : Clauses

/-- The way matches the text. -/
def Way.Matches (text : List Char) (way : Way) : Prop :=
  ∃ body, text = way.blanks ++ body ∧ IsBlanks way.blanks ∧ IsCut body way.clauses

/-- The order in which the ways are tried: many blanks first, then by the cut behind them. -/
def Way.Le (first second : Way) : Prop :=
  second.blanks.length < first.blanks.length ∨
    first.blanks.length = second.blanks.length ∧ CutLe first.clauses second.clauses

variable {run : List Char}

/-- No way takes more blanks than there are in front of the text. -/
theorem Way.Matches.exists_run (hbody : trimStart body = body) {way : Way}
    (h : way.Matches (run ++ body)) :
    ∃ rest, run = way.blanks ++ rest ∧ IsBlanks way.blanks ∧ IsCut (rest ++ body) way.clauses := by
  obtain ⟨other, htext, hblanks, hcut⟩ := h
  rcases List.append_eq_append_iff.mp htext with ⟨rest, hway, rfl⟩ | ⟨rest, hrun, rfl⟩
  · cases rest with
    | nil => exact ⟨[], by rw [hway]; simp, hblanks, hcut⟩
    | cons c rest =>
        have hover : IsBlanks (c :: rest) :=
          ⟨List.cons_ne_nil c rest, fun d hd => hblanks.2 d (hway ▸ List.mem_append_right _ hd)⟩
        exact absurd hbody (hover.trimStart_ne other)
  · exact ⟨rest, hrun, hblanks, hcut⟩

/-- If what follows the blanks cannot be cut, then the assignments of every way are blanks
themselves, and a condition follows after more of them. -/
theorem IsCut.within_run {rest : List Char} {clauses : Clauses} (hrest : AllBlank rest)
    (hbody : trimStart body = body) (hne : body ≠ []) (hnone : ∀ clauses, ¬ IsCut body clauses)
    (h : IsCut (rest ++ body) clauses) :
    ∃ after condition, rest = clauses.1 ++ after ∧ after ≠ [] ∧ clauses.2 = some condition ∧
      IsCondition body condition := by
  obtain ⟨tail, htext, ⟨hfirst, hline⟩, htail⟩ := h
  -- The text behind the blanks is no tail, because a tail is empty or starts with a blank.
  have hinside : ¬ IsTail body clauses.2 := by
    intro hwhole
    cases hcondition : clauses.2 with
    | none =>
        rw [hcondition] at hwhole
        exact hne hwhole
    | some condition =>
        rw [hcondition] at hwhole
        obtain ⟨run, other, rfl, hrun, -⟩ := hwhole
        exact hrun.trimStart_ne other hbody
  rcases List.append_eq_append_iff.mp htext with ⟨shared, hclauses, rfl⟩ | ⟨after, rfl, rfl⟩
  · cases shared with
    | nil => exact absurd htail hinside
    | cons c shared =>
        refine absurd ⟨tail, rfl, ⟨List.cons_ne_nil c shared, ?_⟩, htail⟩ (hnone (_, clauses.2))
        exact fun hmem => hline (hclauses ▸ List.mem_append_right _ hmem)
  · have hafter : after ≠ [] := by
      rintro rfl
      exact hinside htail
    cases hcondition : clauses.2 with
    | none =>
        rw [hcondition] at htail
        exact absurd (List.append_eq_nil_iff.mp htail).1 hafter
    | some condition =>
        rw [hcondition] at htail
        have hblank : IsBlanks after := ⟨hafter, fun c hc => hrest c (List.mem_append_right _ hc)⟩
        exact ⟨after, condition, rfl, hafter, rfl, (isWhereClause_append_iff hblank hbody).mp htail⟩

/-- The reader of blanks in the place of assignments, behind a known run of blanks. -/
theorem cutBlank?_append (hrun : AllBlank run) (hbody : trimStart body = body) :
    cutBlank? (run ++ body) =
      (run.tail.dropLast.reverse.find? (· != '\n')).bind fun blank =>
        (whereClause? (run ++ body)).map fun condition => ([blank], some condition) := by
  have htake : (run ++ body).takeWhile isBlank = run := by
    rw [List.takeWhile_append_of_pos hrun]
    cases body with
    | nil => simp
    | cons c body => simp [not_blank_of_trimStart hbody]
  rw [cutBlank?, htake]
  cases run.tail.dropLast.reverse.find? (· != '\n') with
  | none => rfl
  | some blank => cases whereClause? (run ++ body) <;> rfl

/-- `way.IsWithin run body` says that the way takes blanks of the run for the assignments, with more
blanks on both sides, and what follows the run for the condition. -/
def Way.IsWithin (run body : List Char) (way : Way) : Prop :=
  ∃ after condition, run = way.blanks ++ (way.clauses.1 ++ after) ∧ way.blanks ≠ [] ∧
    IsClause way.clauses.1 ∧ after ≠ [] ∧ way.clauses.2 = some condition ∧
    IsCondition body condition

/-- If what follows the blanks cannot be cut, then there are no other ways. -/
theorem Way.Matches.isWithin (hrun : AllBlank run) (hbody : trimStart body = body) (hne : body ≠ [])
    (hnone : ∀ clauses, ¬ IsCut body clauses) {way : Way} (h : way.Matches (run ++ body)) :
    way.IsWithin run body := by
  obtain ⟨rest, rfl, hblanks, hcut⟩ := h.exists_run hbody
  have hrest : AllBlank rest := fun c hc => hrun c (List.mem_append_right _ hc)
  obtain ⟨after, condition, rfl, hafter, hcondition, hread⟩ := hcut.within_run hrest hbody hne hnone
  obtain ⟨_, -, hclause, -⟩ := hcut
  exact ⟨after, condition, rfl, hblanks.1, hclause, hafter, hcondition, hread⟩

/-- The way that takes the last blank that is no line feed, of those that have others on both sides,
is tried before all ways of its kind. -/
theorem Way.IsWithin.le {first blank last : Char} {front breaks : List Char}
    (hbreaks : ∀ c ∈ breaks, c = '\n') (hend : endsBlank (run ++ body) = false)
    (hwhere : whereClause? (run ++ body) = some condition)
    (hsplit : run = first :: front ++ blank :: (breaks ++ [last])) (hrun : IsBlanks run)
    (hbody : trimStart body = body) {way : Way} (h : way.IsWithin run body) :
    Way.Le ⟨first :: front, ([blank], some condition)⟩ way := by
  obtain ⟨after, other, hparts, -, hfirst, hafter, hother, hread⟩ := h
  have hcut : CutLe ([blank], some condition) way.clauses := by
    rcases Nat.lt_or_eq_of_le (List.length_pos_iff.mpr hfirst.1) with hlt | heq
    · exact .inl hlt
    · refine .inr ⟨heq, ?_⟩
      have hclause := (isWhereClause_append_iff hrun hbody).mpr hread
      rw [← Option.some.inj ((hclause.whereClause?_eq hend).symm.trans hwhere), hother]
      exact trimStart_length_le other
  rcases List.append_eq_append_iff.mp (hsplit.symm.trans hparts) with
    ⟨shared, hblanks, hrest⟩ | ⟨shared, hblanks, -⟩
  · cases shared with
    | nil => exact .inr ⟨by rw [hblanks, List.append_nil], hcut⟩
    | cons c shared =>
        -- All that is left for the assignments are line feeds.
        obtain ⟨d, hd, hne⟩ := hfirst.exists_ne
        have hmem : breaks = shared ++ way.clauses.1 ++ after.dropLast := by
          have hdropped := congrArg List.dropLast (List.cons.inj hrest).2
          rwa [List.append_eq, ← List.append_assoc, List.dropLast_concat,
            List.dropLast_append_of_ne_nil hafter] at hdropped
        have hbreak := hbreaks d (hmem ▸ List.mem_append_left _ (List.mem_append_right _ hd))
        exact absurd hbreak hne
  · cases shared with
    | nil => exact .inr ⟨by rw [hblanks, List.append_nil], hcut⟩
    | cons c shared =>
        refine .inl ?_
        show way.blanks.length < (first :: front).length
        rw [hblanks, List.length_append, List.length_cons]
        omega

/-- It is a way if a condition follows the blanks. -/
theorem Way.matches_blank {first blank last : Char} {front breaks : List Char}
    (hblank : blank ≠ '\n') (hsplit : run = first :: front ++ blank :: (breaks ++ [last]))
    (hrun : IsBlanks run) (hbody : trimStart body = body) (h : IsCondition body condition) :
    Way.Matches (run ++ body) ⟨first :: front, ([blank], some condition)⟩ := by
  have hpart {part : List Char} (hne : part ≠ []) (hsub : part ⊆ run) : IsBlanks part :=
    ⟨hne, fun c hc => hrun.2 c (hsub hc)⟩
  subst hsplit
  refine ⟨[blank] ++ (breaks ++ [last] ++ body), by simp, ?_, _, rfl,
    ⟨List.cons_ne_nil _ _, ?_⟩, ?_⟩
  · exact hpart (List.cons_ne_nil _ _) (List.subset_append_left _ _)
  · simpa using Ne.symm hblank
  · refine (isWhereClause_append_iff (hpart (by simp) ?_) hbody).mpr h
    exact fun c hc => List.mem_append_right _ (List.mem_cons_of_mem _ hc)

/-- A run of which something stands between its first and its last character. -/
theorem exists_of_tail_dropLast {between : List Char} (h : run.tail.dropLast = between)
    (hne : between ≠ []) : ∃ first last, run = first :: (between ++ [last]) := by
  subst h
  cases run with
  | nil => exact absurd rfl hne
  | cons first run =>
      have hrun : run ≠ [] := by
        rintro rfl
        exact hne rfl
      exact ⟨first, run.getLast hrun, by rw [List.tail_cons, List.dropLast_append_getLast]⟩

/-- If what follows the blanks cannot be cut, then the reader finds the first way that takes blanks
for the assignments. -/
theorem cutBlank?_isFirst (hrun : IsBlanks run) (hbody : trimStart body = body) (hne : body ≠ [])
    (hend : endsBlank (run ++ body) = false) (hnone : ∀ clauses, ¬ IsCut body clauses) :
    ∃ found : Option Way, IsFirst Way.Le (·.Matches (run ++ body)) found ∧
      cutBlank? (run ++ body) = found.map (·.clauses) := by
  have hways (way : Way) (hway : way.Matches (run ++ body)) : way.IsWithin run body :=
    hway.isWithin hrun.2 hbody hne hnone
  rw [cutBlank?_append hrun.2 hbody]
  cases hfind : run.tail.dropLast.reverse.find? (· != '\n') with
  | none =>
      refine ⟨none, fun way hway => ?_, rfl⟩
      obtain ⟨after, _, rfl, hblanks, hfirst, hafter, -⟩ := hways way hway
      obtain ⟨d, hd, hbreak⟩ := hfirst.exists_ne
      obtain ⟨c, blanks, hway⟩ := List.exists_cons_of_ne_nil hblanks
      rw [hway, List.cons_append, List.tail_cons, ← List.append_assoc,
        List.dropLast_append_of_ne_nil hafter, List.find?_eq_none] at hfind
      exact hfind d (List.mem_reverse.mpr
        (List.mem_append_left _ (List.mem_append_right _ hd))) (bne_iff_ne.mpr hbreak)
  | some blank =>
      cases hwhere : whereClause? (run ++ body) with
      | none =>
          refine ⟨none, fun way hway => ?_, rfl⟩
          obtain ⟨_, condition, -, -, -, -, -, hread⟩ := hways way hway
          have hclause := (isWhereClause_append_iff hrun hbody).mpr hread
          cases hwhere.symm.trans (hclause.whereClause?_eq hend)
      | some condition =>
          obtain ⟨hblank, breaks, others, hreverse, hbreaks⟩ :=
            List.find?_eq_some_iff_append.mp hfind
          have hbetween : run.tail.dropLast = others.reverse ++ blank :: breaks.reverse := by
            rw [← List.reverse_reverse run.tail.dropLast, hreverse]
            simp
          obtain ⟨first, last, hsplit⟩ := exists_of_tail_dropLast hbetween (by simp)
          replace hsplit : run =
              first :: others.reverse ++ blank :: (breaks.reverse ++ [last]) := by
            rw [hsplit]
            simp
          have hcondition := (isWhereClause_append_iff hrun hbody).mp
            (whereClause?_eq_some_iff.mp hwhere).1
          have hline : ∀ c ∈ breaks.reverse, c = '\n' := fun c hc => by
            simpa using hbreaks c (List.mem_reverse.mp hc)
          exact ⟨some ⟨first :: others.reverse, ([blank], some condition)⟩,
            ⟨Way.matches_blank (bne_iff_ne.mp hblank) hsplit hrun hbody hcondition,
              fun way hway => (hways way hway).le hline hend hwhere hsplit hrun hbody⟩, rfl⟩

/-- The expression `\s+(.+?)(?:\s+WHERE\s+(.+))?$`, which matches what stands behind the `SET` of an
update that does not end in a blank. -/
theorem cutUpdate?_isFirst (hend : endsBlank text = false) :
    ∃ found : Option Way, IsFirst Way.Le (·.Matches text) found ∧
      cutUpdate? text = found.map (·.clauses) := by
  cases hblanks : dropBlanks? text with
  | none =>
      refine ⟨none, fun way hway => ?_, by rw [cutUpdate?, hblanks]; rfl⟩
      obtain ⟨body, rfl, ⟨hne, hblank⟩, -⟩ := hway
      obtain ⟨c, rest, hway⟩ := List.exists_cons_of_ne_nil hne
      rw [hway] at hblank hblanks
      rw [List.cons_append, dropBlanks?, if_pos (hblank c List.mem_cons_self)] at hblanks
      cases hblanks
  | some body =>
      obtain ⟨run, rfl, hrun, hbody⟩ := dropBlanks?_eq_some_iff.mp hblanks
      have hne : body ≠ [] := by
        rintro rfl
        rw [List.append_nil, hrun.endsBlank_eq] at hend
        cases hend
      have hcut := cutWhere?_isFirst hbody ((endsBlank_append run hne).symm.trans hend)
      have hread : cutUpdate? (run ++ body) = (cutWhere? body).or (cutBlank? (run ++ body)) := by
        rw [cutUpdate?, hblanks]
        rfl
      cases hfound : cutWhere? body with
      | none =>
          rw [hfound] at hcut
          rw [hread, hfound, Option.none_or]
          exact cutBlank?_isFirst hrun hbody hne hend hcut
      | some clauses =>
          rw [hfound] at hcut
          rw [hread, hfound, Option.some_or]
          refine ⟨some ⟨run, clauses⟩, ⟨⟨body, rfl, hrun, hcut.1⟩, fun way hway => ?_⟩, rfl⟩
          obtain ⟨rest, hsplit, hblank, hother⟩ := hway.exists_run hbody
          cases rest with
          | nil =>
              rw [List.append_nil] at hsplit
              exact .inr ⟨congrArg List.length hsplit, hcut.2 _ hother⟩
          | cons c rest =>
              refine .inl ?_
              have hlength := congrArg List.length hsplit
              rw [List.length_append, List.length_cons] at hlength
              show way.blanks.length < run.length
              omega

end Memory.Statement

end DocumentClient
