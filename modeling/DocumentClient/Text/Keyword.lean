import DocumentClient.Text.Blank
import DocumentClient.Text.Casing
import DocumentClient.Text.Word
/-!
# Keywords and names in commands

Readers for the start of a command. Each gives the rest of the text, or nothing if the text
does not start so. Keywords are given in small letters and match under simple case folding.
-/

namespace DocumentClient.Text

/-- What follows a keyword. -/
def dropKeyword? : (keyword : List Char) → List Char → Option (List Char)
  | [], rest => some rest
  | k :: keyword, c :: rest => if fold c = k then dropKeyword? keyword rest else none
  | _ :: _, [] => none

/-- What follows one or more blanks. -/
def dropBlanks? : List Char → Option (List Char)
  | [] => none
  | c :: rest => if isBlank c then some (trimStart rest) else none

/-- What follows a keyword and one or more blanks. -/
def dropWord? (keyword : String) (text : List Char) : Option (List Char) :=
  (dropKeyword? keyword.toList text).bind dropBlanks?

/-- What follows one or more blanks, a keyword and one or more blanks. -/
def dropInnerWord? (keyword : String) (text : List Char) : Option (List Char) :=
  (dropBlanks? text).bind (dropWord? keyword)

/-- The longest name at the start of a text, and what follows it. -/
def readName? (text : List Char) : Option (List Char × List Char) :=
  let name := text.takeWhile isWord
  if name.isEmpty then none else some (name, text.dropWhile isWord)

/-- Reading a name leaves no more text than there was. -/
theorem readName?_length {text name rest : List Char}
    (h : readName? text = some (name, rest)) : rest.length ≤ text.length := by
  simp only [readName?, Option.ite_none_left_eq_some, Option.some.injEq, Prod.mk.injEq] at h
  rw [← h.2.2]
  exact (List.dropWhile_sublist _).length_le

end DocumentClient.Text
