import DocumentClient.Text.Expression
/-!
# `LIKE` patterns

In a pattern, `%` stands for any run of characters, `_` for any one character, and every other
character for itself under simple case folding. A missing pattern matches everything. Any other
pattern is translated to a regular expression, character by character, and one whose expression
does not compile is unusable and matches nothing.
-/

namespace DocumentClient

/-- A pattern made ready for matching. -/
inductive Like where
  | any
  | usable (expression : Expression)
  | unusable

namespace Like

/-- The part of the expression for a character of a pattern. -/
def translate (c : Char) : List Char :=
  if c = '%' then ['.', '*'] else if c = '_' then ['.'] else Expression.escape c

/-- The expression of a pattern: it has to match a value from its start to its end, without regard
to case and over line feeds. -/
def expression (pattern : String) : String :=
  "(?is)^" ++ String.ofList (pattern.toList.flatMap translate) ++ "$"

/-- Makes a pattern ready for matching. -/
def compile [ExpressionCompiler] : Option String → Like
  | none => any
  | some pattern =>
    match Expression.compile? (expression pattern) with
    | some e => usable e
    | none => unusable

/-- Whether a pattern matches a value. -/
def isMatch (pattern : Like) (value : String) : Bool :=
  match pattern with
  | any => true
  | usable e => e.isMatch value
  | unusable => false

end Like

end DocumentClient
