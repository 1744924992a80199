import DocumentClient.Text.Expression
import Mathlib.Data.List.Basic

/-!
# What a regular expression matches

`Matches e pieces first text` says that the pieces match at the front of a text, piece by piece,
where `first` tells whether the text is the whole one and no mere suffix of it. The matcher follows
no such derivation. It goes through the pieces from the last one and keeps a table of the answers
for all suffixes. `Answers` says that a table is right, each piece keeps it right
(`Answers.advance`), and so an expression is found in a text exactly if its pieces match at the
front of some suffix (`isMatch_iff`).
-/

namespace DocumentClient.Expression

/-! ## The reference -/

/-- `atom.StandsFor e d` says that the atom stands for the character `d` under the flags of `e`. -/
def Atom.StandsFor (e : Expression) : Atom → Char → Prop
  | any, d => e.dotsLineFeed = true ∨ d ≠ '\n'
  | literal c, d => e.key d = e.key c

/-- `Matches e pieces first text` says that the pieces match at the front of the text under the
flags of `e`. The text starts where the whole text does if `first` holds. -/
inductive Matches (e : Expression) : List Piece → (first : Bool) → List Char → Prop where
  | nil (first text) : Matches e [] first text
  | start (pieces text) : Matches e pieces true text → Matches e (.start :: pieces) true text
  | finish (pieces first) : Matches e pieces first [] → Matches e (.finish :: pieces) first []
  | one (atom pieces first d text) :
      atom.StandsFor e d → Matches e pieces false text →
      Matches e (.one atom :: pieces) first (d :: text)
  | skip (atom pieces first text) :
      Matches e pieces first text → Matches e (.many atom :: pieces) first text
  | more (atom pieces first d text) :
      atom.StandsFor e d → Matches e (.many atom :: pieces) false text →
      Matches e (.many atom :: pieces) first (d :: text)

variable {e : Expression} {atom : Atom} {pieces : List Piece} {first : Bool} {d : Char}
  {text : List Char} {table : List Bool} {P : Bool → List Char → Prop}

/-- The end of the text is matched by the empty suffix only. -/
theorem matches_finish_iff :
    Matches e (.finish :: pieces) first text ↔ text = [] ∧ Matches e pieces first [] := by
  constructor
  · rintro (_ | _ | ⟨_, _, hrest⟩)
    exact ⟨rfl, hrest⟩
  · rintro ⟨rfl, hrest⟩
    exact .finish _ _ hrest

/-- A single atom takes the first character. -/
theorem matches_one_iff : Matches e (.one atom :: pieces) first text ↔
    ∃ d rest, text = d :: rest ∧ atom.StandsFor e d ∧ Matches e pieces false rest := by
  constructor
  · rintro (_ | _ | _ | ⟨_, _, _, d, rest, hd, hrest⟩)
    exact ⟨d, rest, rfl, hd, hrest⟩
  · rintro ⟨d, rest, rfl, hd, hrest⟩
    exact .one _ _ _ _ _ hd hrest

/-- At the end of the text, a starred atom takes nothing. -/
theorem matches_many_nil_iff :
    Matches e (.many atom :: pieces) first [] ↔ Matches e pieces first [] := by
  constructor
  · rintro (_ | _ | _ | _ | ⟨_, _, _, _, hrest⟩)
    exact hrest
  · exact .skip _ _ _ _

/-- A starred atom takes nothing, or it takes the first character and goes on. -/
theorem matches_many_cons_iff : Matches e (.many atom :: pieces) first (d :: text) ↔
    Matches e pieces first (d :: text) ∨
      atom.StandsFor e d ∧ Matches e (.many atom :: pieces) false text := by
  constructor
  · rintro (_ | _ | _ | _ | ⟨_, _, _, _, hrest⟩ | ⟨_, _, _, _, _, hd, hrest⟩)
    · exact .inl hrest
    · exact .inr ⟨hd, hrest⟩
  · rintro (hrest | ⟨hd, hrest⟩)
    · exact .skip _ _ _ _ hrest
    · exact .more _ _ _ _ _ hd hrest

/-! ## Tables of answers -/

/-- `Answers P first text table` says that the table holds, for each suffix of the text, whether
`P` is true of it. -/
inductive Answers (P : Bool → List Char → Prop) : Bool → List Char → List Bool → Prop where
  | nil (first b) : (b = true ↔ P first []) → Answers P first [] [b]
  | cons (first d text b table) :
      (b = true ↔ P first (d :: text)) → Answers P false text table →
      Answers P first (d :: text) (b :: table)

/-- The first answer is the one for the whole text. -/
theorem Answers.headD_iff (h : Answers P first text table) :
    table.headD false = true ↔ P first text := by
  cases h with
  | nil _ _ hb => exact hb
  | cons _ _ _ _ _ hb _ => exact hb

/-- Some answer is `true` exactly if `P` is true of some suffix. -/
theorem Answers.any_iff (h : Answers P first text table) :
    table.any id = true ↔
      ∃ before rest, before ++ rest = text ∧ P (first && before.isEmpty) rest := by
  induction h with
  | nil first b hb => simp [hb]
  | cons first d text b table hb _ ih =>
      rw [List.any_cons, Bool.or_eq_true, ih, id_eq, hb]
      constructor
      · rintro (hP | ⟨before, rest, rfl, hP⟩)
        · exact ⟨[], _, rfl, by simpa using hP⟩
        · exact ⟨d :: before, rest, rfl, by simpa using hP⟩
      · rintro ⟨_ | ⟨d', before⟩, rest, heq, hP⟩
        · rw [List.nil_append] at heq
          exact .inl (by simpa [heq] using hP)
        · obtain ⟨rfl, rfl⟩ := List.cons.inj heq
          exact .inr ⟨before, rest, rfl, by simpa using hP⟩

/-! ## One step for each piece -/

/-- With the keys computed, an atom accepts the characters that it stands for. -/
theorem Atom.accepts_keyed_iff (e : Expression) (atom : Atom) (d : Char) :
    (atom.keyed e).accepts e (d, e.key d) = true ↔ atom.StandsFor e d := by
  cases atom with
  | any => simp [keyed, accepts, StandsFor]
  | literal c => simp [keyed, accepts, StandsFor]

/-- No proper suffix is at the start of the text. -/
theorem Answers.map_false (h : Answers P false text table) :
    Answers (Matches e (.start :: pieces)) false text (table.map fun _ => false) := by
  have hfalse (text : List Char) : (false = true ↔ Matches e (.start :: pieces) false text) :=
    iff_of_false Bool.false_ne_true (by rintro ⟨⟩)
  generalize hfirst : false = first at h
  induction h with
  | nil first b _ => exact hfirst ▸ .nil _ _ (hfalse [])
  | cons first d text b table _ _ ih => exact hfirst ▸ .cons _ _ _ _ _ (hfalse _) (ih rfl)

/-- The table with the start of the text in front. -/
theorem Answers.atStart (h : Answers (Matches e pieces) true text table) :
    Answers (Matches e (.start :: pieces)) true text (atStart table) := by
  have hstart (text : List Char) :
      Matches e pieces true text ↔ Matches e (.start :: pieces) true text :=
    ⟨.start _ _, by rintro (_ | ⟨_, _, hrest⟩); exact hrest⟩
  cases h with
  | nil _ _ hb => exact .nil _ _ (hb.trans (hstart _))
  | cons _ _ _ _ _ hb htable => exact .cons _ _ _ _ _ (hb.trans (hstart _)) htable.map_false

/-- The table with the end of the text in front. -/
theorem Answers.atEnd (h : Answers (Matches e pieces) first text table) :
    Answers (Matches e (.finish :: pieces)) first text (atEnd table) := by
  induction h with
  | nil first b hb => exact .nil _ _ (hb.trans (by simp [matches_finish_iff]))
  | cons first d text b table hb htable ih =>
      have hfalse : (false = true ↔ Matches e (.finish :: pieces) first (d :: text)) := by
        simp [matches_finish_iff]
      cases htable <;> exact .cons _ _ _ _ _ hfalse ih

/-- The table with a single atom in front. -/
theorem Answers.afterOne (h : Answers (Matches e pieces) first text table) :
    Answers (Matches e (.one atom :: pieces)) first text
      (afterOne e (atom.keyed e) (text.map fun d => (d, e.key d)) table) := by
  induction h with
  | nil first b hb => exact .nil _ _ (by simp [matches_one_iff])
  | cons first d text b table hb htable ih =>
      refine .cons _ _ _ _ _ ?_ ih
      rw [Bool.and_eq_true, Atom.accepts_keyed_iff, htable.headD_iff, matches_one_iff]
      simp

/-- The table with a starred atom in front, from the shortest suffix on. -/
theorem Answers.afterMany (h : Answers (Matches e pieces) first text table) :
    Answers (Matches e (.many atom :: pieces)) first text
      (afterMany e (atom.keyed e) (text.map fun d => (d, e.key d)) table) := by
  induction h with
  | nil first b hb => exact .nil _ _ (hb.trans matches_many_nil_iff.symm)
  | cons first d text b table hb htable ih =>
      refine .cons _ _ _ _ _ ?_ ih
      rw [Bool.or_eq_true, Bool.and_eq_true, Atom.accepts_keyed_iff, ih.headD_iff, hb,
        matches_many_cons_iff]

/-- One more piece in front keeps the table right. -/
theorem Answers.advance (h : Answers (Matches e pieces) true text table) (piece : Piece) :
    Answers (Matches e (piece :: pieces)) true text
      (piece.advance e (text.map fun d => (d, e.key d)) table) := by
  cases piece with
  | start => exact h.atStart
  | finish => exact h.atEnd
  | one atom => exact h.afterOne
  | many atom => exact h.afterMany

/-! ## The matcher -/

/-- Without pieces, every answer is `true`. -/
theorem answers_nil (e : Expression) (first : Bool) (text : List Char) :
    Answers (Matches e []) first text
      (answers e (text.map fun d => (d, e.key d)) []) := by
  induction text generalizing first with
  | nil => exact .nil _ _ (iff_of_true rfl (.nil _ _))
  | cons d text ih => exact .cons _ _ _ _ _ (iff_of_true rfl (.nil _ _)) (ih false)

/-- The table of the matcher is right, by induction on the pieces. -/
theorem answers_spec (e : Expression) (pieces : List Piece) (text : List Char) :
    Answers (Matches e pieces) true text (answers e (text.map fun d => (d, e.key d)) pieces) := by
  induction pieces with
  | nil => exact answers_nil e true text
  | cons piece pieces ih => exact ih.advance piece

/-- An expression is found in a text exactly if its pieces match at the front of some suffix. -/
theorem isMatch_iff (e : Expression) (text : String) :
    e.isMatch text = true ↔
      ∃ before rest, before ++ rest = text.toList ∧ Matches e e.pieces before.isEmpty rest := by
  rw [isMatch, (answers_spec e e.pieces text.toList).any_iff]
  simp only [Bool.true_and]

/-- With the start of the text in front, only the whole text is looked at. -/
theorem isMatch_start_iff (hstart : e.pieces = .start :: pieces) (text : String) :
    e.isMatch text = true ↔ Matches e pieces true text.toList := by
  rw [isMatch_iff, hstart]
  constructor
  · rintro ⟨before, rest, htext, hmatches⟩
    generalize hfirst : before.isEmpty = first at hmatches
    cases hmatches with
    | start _ _ hrest =>
        rw [List.isEmpty_iff.mp hfirst, List.nil_append] at htext
        exact htext ▸ hrest
  · intro hrest
    exact ⟨[], text.toList, rfl, .start _ _ hrest⟩

/-! ## The reader -/

/-- The text of an escaped character is read as that character. -/
theorem symbols?_escape_append (c : Char) (text : List Char) :
    symbols? (escape c ++ text) = (symbols? text).map (.atom (.literal c) :: ·) := by
  by_cases hmeta : metaCharacters.contains c
  · rw [escape, if_pos hmeta]
    show symbols? ('\\' :: c :: text) = _
    rw [symbols?, if_pos hmeta]
  · have hne {m : Char} (hm : metaCharacters.contains m = true) : c ≠ m := by
      rintro rfl
      exact hmeta hm
    rw [escape, if_neg hmeta]
    show symbols? (c :: text) = _
    rw [symbols?, Symbol.ofChar?, if_neg (hne rfl), if_neg (hne rfl), if_neg (hne rfl),
      if_neg (hne rfl), if_neg hmeta, Option.bind_some]
    exact fun _ _ hc => absurd hc (hne rfl)

/-- An atom without a star behind it is taken once. -/
theorem pieces?_atom_cons {symbols : List Symbol} (h : symbols.head? ≠ some .star) (atom : Atom) :
    pieces? (.atom atom :: symbols) = (pieces? symbols).map (.one atom :: ·) := by
  rw [pieces?]
  rintro rest rfl
  exact h rfl

end DocumentClient.Expression
