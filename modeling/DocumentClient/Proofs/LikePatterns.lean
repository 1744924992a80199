import DocumentClient.Metadata.Like
import DocumentClient.Proofs.Expressions
import Mathlib.Data.List.Infix
import Mathlib.Data.List.Forall2

/-!
# What a `LIKE` pattern matches

A pattern matches a value exactly if the value can be cut into pieces, one for each character of the
pattern, so that each piece is what its character stands for (`Like.isMatch_compile_iff`). The
program never looks for such a cut. It writes an expression, which the compiler either refuses or
reads back as the pieces of the pattern's characters between the two ends of the value
(`read?_expression`), and these pieces match exactly the values that the pattern cuts
(`matches_pieces_iff`).
-/

namespace DocumentClient.Like

open Expression (Atom Piece Symbol Matches symbols? pieces?)

/-! ## The reference -/

/-- Whether a piece of a value is what a character of a pattern stands for. -/
def StandsFor : Char → List Char → Prop
  | '%', _ => True
  | '_', piece => ∃ d, piece = [d]
  | c, piece => ∃ d, piece = [d] ∧ Text.fold d = Text.fold c

/-- The value can be cut into consecutive pieces, one for each character of the pattern. -/
def Cuts (pattern value : List Char) : Prop :=
  ∃ pieces : List (List Char), pieces.flatten = value ∧ List.Forall₂ StandsFor pattern pieces

variable {c d : Char} {pattern value : List Char} {e : Expression} {first : Bool}

/-- Any other character than the two stands for itself. -/
theorem standsFor_letter_iff (hrun : c ≠ '%') (hsingle : c ≠ '_') (piece : List Char) :
    StandsFor c piece ↔ ∃ d, piece = [d] ∧ Text.fold d = Text.fold c := by
  rw [StandsFor]
  · exact hrun
  · exact hsingle

/-- The empty pattern cuts the empty value only. -/
theorem cuts_nil_iff : Cuts [] value ↔ value = [] := by
  constructor
  · rintro ⟨pieces, rfl, hpieces⟩
    cases hpieces
    rfl
  · rintro rfl
    exact ⟨[], rfl, .nil⟩

/-- The piece of the first character stands in front of the others. -/
theorem cuts_cons_iff : Cuts (c :: pattern) value ↔
    ∃ piece rest, value = piece ++ rest ∧ StandsFor c piece ∧ Cuts pattern rest := by
  constructor
  · rintro ⟨pieces, rfl, hpieces⟩
    cases hpieces with
    | cons hpiece hrest => exact ⟨_, _, List.flatten_cons, hpiece, _, rfl, hrest⟩
  · rintro ⟨piece, rest, rfl, hpiece, pieces, rfl, hrest⟩
    exact ⟨piece :: pieces, List.flatten_cons, .cons hpiece hrest⟩

/-- A run is empty, or it takes the first character and goes on. -/
theorem cuts_run_cons_iff : Cuts ('%' :: pattern) (d :: value) ↔
    Cuts pattern (d :: value) ∨ Cuts ('%' :: pattern) value := by
  simp only [cuts_cons_iff, StandsFor, true_and]
  constructor
  · rintro ⟨piece, rest, hvalue, hrest⟩
    cases piece with
    | nil => exact .inl (hvalue ▸ hrest)
    | cons e piece =>
        obtain ⟨-, rfl⟩ := List.cons.inj hvalue
        exact .inr ⟨piece, rest, rfl, hrest⟩
  · rintro (hrest | ⟨piece, rest, rfl, hrest⟩)
    · exact ⟨[], _, rfl, hrest⟩
    · exact ⟨d :: piece, rest, rfl, hrest⟩

/-- In the empty value, a run is empty. -/
theorem cuts_run_nil_iff : Cuts ('%' :: pattern) [] ↔ Cuts pattern [] := by
  simp [cuts_cons_iff, StandsFor]

/-- A single character is the first one of the value. -/
theorem cuts_single_iff : Cuts ('_' :: pattern) value ↔
    ∃ d rest, value = d :: rest ∧ Cuts pattern rest := by
  simp only [cuts_cons_iff, StandsFor]
  constructor
  · rintro ⟨_, rest, rfl, ⟨d, rfl⟩, hrest⟩
    exact ⟨d, rest, rfl, hrest⟩
  · rintro ⟨d, rest, rfl, hrest⟩
    exact ⟨[d], rest, rfl, ⟨d, rfl⟩, hrest⟩

/-- So is a letter, in the case that the value has it. -/
theorem cuts_letter_iff (hrun : c ≠ '%') (hsingle : c ≠ '_') : Cuts (c :: pattern) value ↔
    ∃ d rest, value = d :: rest ∧ Text.fold d = Text.fold c ∧ Cuts pattern rest := by
  simp only [cuts_cons_iff, standsFor_letter_iff hrun hsingle]
  constructor
  · rintro ⟨_, rest, rfl, ⟨d, rfl, hfold⟩, hrest⟩
    exact ⟨d, rest, rfl, hfold, hrest⟩
  · rintro ⟨d, rest, rfl, hfold, hrest⟩
    exact ⟨[d], rest, rfl, ⟨d, rfl, hfold⟩, hrest⟩

/-! ## Reading an expression back -/

/-- The symbols that the expression has for a character of a pattern. -/
def symbolsOf (c : Char) : List Symbol :=
  if c = '%' then [.atom .any, .star]
  else if c = '_' then [.atom .any]
  else [.atom (.literal c)]

/-- The piece that a character of a pattern becomes. -/
def pieceOf (c : Char) : Piece :=
  if c = '%' then .many .any else if c = '_' then .one .any else .one (.literal c)

/-- The expression that a pattern becomes. -/
def anchored (pattern : List Char) : Expression where
  ignoresCase := true
  dotsLineFeed := true
  pieces := .start :: (pattern.map pieceOf ++ [.finish])

/-- The text for a character of a pattern is read as its symbols. Only the third case needs that
special characters are escaped. -/
theorem symbols?_translate_append (c : Char) (text : List Char) :
    symbols? (translate c ++ text) = (symbols? text).map (symbolsOf c ++ ·) := by
  by_cases hrun : c = '%'
  · subst hrun
    show symbols? ('.' :: '*' :: text) = _
    simp [symbols?, Symbol.ofChar?, symbolsOf, Function.comp_def]
  by_cases hsingle : c = '_'
  · subst hsingle
    show symbols? ('.' :: text) = _
    simp [symbols?, Symbol.ofChar?, symbolsOf]
  · rw [translate, if_neg hrun, if_neg hsingle, Expression.symbols?_escape_append, symbolsOf,
      if_neg hrun, if_neg hsingle]
    rfl

/-- The text for a pattern is read as the symbols of its characters, by induction on it. -/
theorem symbols?_flatMap_translate (pattern : List Char) :
    symbols? (pattern.flatMap translate ++ ['$']) =
      some (pattern.flatMap symbolsOf ++ [.finish]) := by
  induction pattern with
  | nil => rfl
  | cons c pattern ih =>
      rw [List.flatMap_cons, List.append_assoc, symbols?_translate_append, ih, Option.map_some,
        List.flatMap_cons, List.append_assoc]

/-- What follows a character of the pattern is never read as a star behind it. -/
theorem head?_symbols_ne_star (pattern : List Char) :
    (pattern.flatMap symbolsOf ++ [Symbol.finish]).head? ≠ some .star := by
  cases pattern with
  | nil => simp
  | cons c pattern =>
      rw [List.flatMap_cons, symbolsOf]
      split_ifs <;> simp

/-- The symbols of a pattern's characters make one piece for each of them. -/
theorem pieces?_flatMap_symbolsOf (pattern : List Char) :
    pieces? (pattern.flatMap symbolsOf ++ [.finish]) =
      some (pattern.map pieceOf ++ [.finish]) := by
  induction pattern with
  | nil => rfl
  | cons c pattern ih =>
      have hone (atom : Atom) :
          pieces? (.atom atom :: (pattern.flatMap symbolsOf ++ [.finish])) =
            some (.one atom :: (pattern.map pieceOf ++ [.finish])) := by
        rw [Expression.pieces?_atom_cons (head?_symbols_ne_star pattern), ih, Option.map_some]
      rw [List.flatMap_cons, List.append_assoc, List.map_cons, symbolsOf, pieceOf]
      split_ifs with hrun hsingle
      · show pieces? (.atom .any :: .star :: (pattern.flatMap symbolsOf ++ [.finish])) = _
        rw [pieces?, ih]
        rfl
      · exact hone .any
      · exact hone (.literal c)

/-- The expression of every pattern is well formed, and is read as the pattern between the two
ends of the value. -/
theorem read?_expression (pattern : String) :
    Expression.read? (expression pattern) = some (anchored pattern.toList) := by
  have htext : (expression pattern).toList =
      "(?is)".toList ++ '^' :: (pattern.toList.flatMap translate ++ ['$']) := by
    simp [expression]
  have hflags (text : List Char) :
      Expression.flags? ("(?is)".toList ++ text) = some (['i', 's'], text) := by
    simp [Expression.flags?, List.span_eq_takeWhile_dropWhile]
  have hsymbols : symbols? ('^' :: (pattern.toList.flatMap translate ++ ['$'])) =
      some (.start :: (pattern.toList.flatMap symbolsOf ++ [.finish])) := by
    rw [symbols?, symbols?_flatMap_translate]
    · rfl
    · exact fun _ _ hc => absurd hc (by decide)
  have hpieces : pieces? (.start :: (pattern.toList.flatMap symbolsOf ++ [.finish])) =
      some (.start :: (pattern.toList.map pieceOf ++ [.finish])) := by
    rw [pieces?, pieces?_flatMap_symbolsOf]
    rfl
  rw [Expression.read?, htext, hflags]
  show ((symbols? _).bind fun symbols => (pieces? symbols).bind _) = _
  rw [hsymbols, Option.bind_some, hpieces]
  rfl

/-! ## What the pieces match -/

/-- Over line feeds, the atom for any character stands for each of them. -/
theorem standsFor_any (hdots : e.dotsLineFeed = true) (d : Char) : Atom.any.StandsFor e d :=
  .inl hdots

/-- Without regard to case, characters are compared by their folds. -/
theorem standsFor_literal_iff (hcase : e.ignoresCase = true) (c d : Char) :
    (Atom.literal c).StandsFor e d ↔ Text.fold d = Text.fold c := by
  rw [Atom.StandsFor, Expression.key, Expression.key, if_pos hcase, if_pos hcase]

/-- A run in front of a pattern, by induction on the value that it takes its characters from. -/
theorem matches_many_any_iff {pieces : List Piece} (hdots : e.dotsLineFeed = true)
    (h : ∀ first value, Matches e pieces first value ↔ Cuts pattern value) (first : Bool)
    (value : List Char) :
    Matches e (.many .any :: pieces) first value ↔ Cuts ('%' :: pattern) value := by
  induction value generalizing first with
  | nil => rw [Expression.matches_many_nil_iff, h, cuts_run_nil_iff]
  | cons d value ih =>
      rw [Expression.matches_many_cons_iff, h, ih, cuts_run_cons_iff]
      simp only [standsFor_any hdots d, true_and]

/-- The pieces of a pattern, up to the end of the value, match exactly the values that the pattern
cuts. The induction is on the pattern. -/
theorem matches_pieces_iff (hcase : e.ignoresCase = true) (hdots : e.dotsLineFeed = true)
    (pattern : List Char) (first : Bool) (value : List Char) :
    Matches e (pattern.map pieceOf ++ [.finish]) first value ↔ Cuts pattern value := by
  induction pattern generalizing first value with
  | nil =>
      rw [List.map_nil, List.nil_append, Expression.matches_finish_iff, cuts_nil_iff]
      exact and_iff_left (.nil _ _)
  | cons c pattern ih =>
      rw [List.map_cons, List.cons_append, pieceOf]
      split_ifs with hrun hsingle
      · subst hrun
        exact matches_many_any_iff hdots ih first value
      · subst hsingle
        rw [Expression.matches_one_iff, cuts_single_iff]
        simp only [standsFor_any hdots, true_and, ih]
      · rw [Expression.matches_one_iff, cuts_letter_iff hrun hsingle]
        simp only [standsFor_literal_iff hcase, ih]

/-- The expression of a pattern is found in exactly the values that the pattern cuts. -/
theorem isMatch_anchored_iff (pattern : List Char) (value : String) :
    (anchored pattern).isMatch value = true ↔ Cuts pattern value.toList := by
  rw [Expression.isMatch_start_iff rfl, matches_pieces_iff rfl rfl]

/-! ## Compiled patterns -/

section Compiled

variable [ExpressionCompiler]

/-- A pattern is usable exactly if the compiler accepts its expression. -/
theorem compile_some (pattern : String) :
    compile (some pattern) =
      if ExpressionCompiler.accepts (expression pattern) then .usable (anchored pattern.toList)
      else .unusable := by
  rw [compile, Expression.compile?, read?_expression]
  split_ifs <;> rfl

/-- A usable pattern matches the values that it cuts. -/
theorem isMatch_compile_iff {pattern : String} (h : compile (some pattern) ≠ .unusable)
    (value : String) :
    (compile (some pattern)).isMatch value = true ↔ Cuts pattern.toList value.toList := by
  by_cases haccepts : ExpressionCompiler.accepts (expression pattern) = true
  · rw [compile_some, if_pos haccepts, ← isMatch_anchored_iff]
    rfl
  · exact absurd (by rw [compile_some, if_neg haccepts]) h

end Compiled

/-- A run that holds a line feed, a line feed for a single character, and a long `s` for an `S`. -/
theorem isMatch_compile_breaks :
    let _ := ExpressionCompiler.unlimited
    let pattern := "a%_S"
    compile (some pattern) ≠ .unusable ∧ Cuts pattern.toList "A%\nb\nſ".toList ∧
      ¬ Cuts pattern.toList "aS".toList := by
  intro _ pattern
  have husable : compile (some pattern) ≠ .unusable := by
    rw [compile_some]
    exact Like.noConfusion
  refine ⟨husable, ?_, ?_⟩
  · exact (isMatch_compile_iff husable _).mp (by decide +kernel)
  · exact mt (isMatch_compile_iff husable _).mpr (by decide +kernel)

end DocumentClient.Like
