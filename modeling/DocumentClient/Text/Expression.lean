import DocumentClient.Text.Casing
/-!
# Regular expressions

The fragment of regular expressions that patterns are translated to: literal characters, any
character, both with or without a star, the two ends of the text, and flags in front for ignoring
case and for letting any character be a line feed. `Expression.read?` reads one,
`Expression.isMatch` finds it anywhere in a text.

Whether the compiler of expressions takes a text at all, say for its size, is no matter of this
fragment: that is the class `ExpressionCompiler`.

`Expression.answers` decides all suffixes of a text at once, from the shortest on, so that the work
is the length of the expression times the length of the text.
-/

namespace DocumentClient

/-- What stands for one character. -/
inductive Expression.Atom where
  | any
  | literal (c : Char)
deriving DecidableEq

/-- A piece of an expression. -/
inductive Expression.Piece where
  /-- The start of the text. -/
  | start
  /-- The end of the text. -/
  | finish
  | one (atom : Expression.Atom)
  /-- The atom any number of times. -/
  | many (atom : Expression.Atom)
deriving DecidableEq

/-- A regular expression: its flags, and its pieces one after the other. -/
structure Expression where
  ignoresCase : Bool
  /-- Whether any character may be a line feed. -/
  dotsLineFeed : Bool
  pieces : List Expression.Piece
deriving DecidableEq

namespace Expression

/-! ## Texts of expressions -/

/-- The characters that mean something else than themselves, or may do so somewhere. -/
def metaCharacters : List Char :=
  "\\.+*?()|[]\x7b\x7d^$#&-~".toList

/-- A character as the expression that stands for it. -/
def escape (c : Char) : List Char :=
  if metaCharacters.contains c then ['\\', c] else [c]

/-- A symbol in the text of an expression. -/
inductive Symbol where
  | start
  | finish
  | atom (atom : Atom)
  | star
deriving DecidableEq

/-- The symbol of a character without a backslash in front. -/
def Symbol.ofChar? (c : Char) : Option Symbol :=
  if c = '^' then some .start
  else if c = '$' then some .finish
  else if c = '.' then some (.atom .any)
  else if c = '*' then some .star
  else if metaCharacters.contains c then none
  else some (.atom (.literal c))

/-- The symbols of a text. -/
def symbols? : List Char → Option (List Symbol)
  | [] => some []
  | '\\' :: c :: text =>
    if metaCharacters.contains c then (symbols? text).map (.atom (.literal c) :: ·) else none
  | c :: text => (Symbol.ofChar? c).bind fun symbol => (symbols? text).map (symbol :: ·)

/-- The pieces that symbols make. A star belongs to the atom in front of it. -/
def pieces? : List Symbol → Option (List Piece)
  | [] => some []
  | .start :: symbols => (pieces? symbols).map (.start :: ·)
  | .finish :: symbols => (pieces? symbols).map (.finish :: ·)
  | .atom atom :: .star :: symbols => (pieces? symbols).map (.many atom :: ·)
  | .atom atom :: symbols => (pieces? symbols).map (.one atom :: ·)
  | .star :: _ => none

/-- The flags in front of an expression, and the text after them. -/
def flags? : List Char → Option (List Char × List Char)
  | '(' :: '?' :: text =>
    match text.span (· != ')') with
    | (flags, _ :: text) =>
      if flags ≠ [] ∧ flags.Nodup ∧ flags.all "is".toList.contains then some (flags, text) else none
    | (_, []) => none
  | text => some ([], text)

/-- Reads an expression. -/
def read? (text : String) : Option Expression := do
  let (flags, text) ← flags? text.toList
  let symbols ← symbols? text
  let pieces ← pieces? symbols
  return ⟨flags.contains 'i', flags.contains 's', pieces⟩

/-! ## Matching -/

/-- What is compared of a character. -/
def key (e : Expression) (c : Char) : Char :=
  if e.ignoresCase then Text.fold c else c

/-- The atom with what is compared of its character. -/
def Atom.keyed (e : Expression) : Atom → Atom
  | any => any
  | literal c => literal (e.key c)

/-- Whether an atom that is keyed stands for a character, which comes with its key. -/
def Atom.accepts (e : Expression) : Atom → Char × Char → Bool
  | any, (d, _) => e.dotsLineFeed || d != '\n'
  | literal c, (_, key) => key == c

/-- The answers for the suffixes of a text with one atom more in front. -/
def afterOne (e : Expression) (atom : Atom) : (text : List (Char × Char)) → List Bool → List Bool
  | d :: text, _ :: rest => (atom.accepts e d && rest.headD false) :: afterOne e atom text rest
  | _, _ => [false]

/-- The answers for the suffixes of a text with any number of an atom more in front. -/
def afterMany (e : Expression) (atom : Atom) : (text : List (Char × Char)) → List Bool → List Bool
  | d :: text, b :: rest =>
    let later := afterMany e atom text rest
    (b || atom.accepts e d && later.headD false) :: later
  | _, rest => rest

/-- The answers for the suffixes of a text if only the whole text will do. -/
def atStart : List Bool → List Bool
  | [] => []
  | b :: rest => b :: rest.map fun _ => false

/-- The answers for the suffixes of a text if only the empty one will do. -/
def atEnd : List Bool → List Bool
  | [] => []
  | [b] => [b]
  | _ :: rest => false :: atEnd rest

/-- The answers for the suffixes of a text with one piece more in front. -/
def Piece.advance (e : Expression) (text : List (Char × Char)) (rest : List Bool) :
    Piece → List Bool
  | start => atStart rest
  | finish => atEnd rest
  | one atom => afterOne e (atom.keyed e) text rest
  | many atom => afterMany e (atom.keyed e) text rest

/-- For each suffix of a text, the empty one last, whether the pieces match at its front. -/
def answers (e : Expression) (text : List (Char × Char)) : List Piece → List Bool
  | [] => text.map (fun _ => true) ++ [true]
  | piece :: pieces => piece.advance e text (answers e text pieces)

/-- Whether the expression is found anywhere in a text. -/
def isMatch (e : Expression) (text : String) : Bool :=
  (e.answers (text.toList.map fun d => (d, e.key d)) e.pieces).any id

end Expression

/-- A compiler of expressions, which may refuse some texts. -/
class ExpressionCompiler where
  accepts : (text : String) → Bool

/-- The compiler that refuses no text. -/
@[reducible] def ExpressionCompiler.unlimited : ExpressionCompiler where
  accepts _ := true

/-- Compiles an expression. -/
def Expression.compile? [ExpressionCompiler] (text : String) : Option Expression :=
  if ExpressionCompiler.accepts text then Expression.read? text else none

end DocumentClient
