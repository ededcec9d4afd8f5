import Bhasha.Text.Letter

/-!
# The case of a text

Upper case is taken letter by letter.  Lower case is too, apart from the capital sigma, which
becomes a final sigma where it ends a word.
-/

namespace Bhasha.Text

/-- Whether the first character that is not case-ignorable is a cased letter. -/
def startsCased (text : List Char) : Bool :=
  match text.dropWhile isCaseIgnorable with
  | [] => false
  | c :: _ => isCased c

/-- The lower case of a capital sigma after `before`, read backwards, and in front of
`after`. -/
def lowerSigma (before after : List Char) : Char :=
  if startsCased before && !startsCased after then 'ς' else 'σ'

/-- The lower case of the rest of a text, where `before` is what precedes it, read
backwards. -/
def lowerAfter (before : List Char) : List Char → List Char
  | [] => []
  | c :: rest =>
      (if c = 'Σ' then [lowerSigma before rest] else lowerChar c) ++ lowerAfter (c :: before) rest

/-- A text in upper case. -/
def toUpper (text : String) : String :=
  String.ofList (text.toList.flatMap upperChar)

/-- A text in lower case. -/
def toLower (text : String) : String :=
  String.ofList (lowerAfter [] text.toList)

end Bhasha.Text
