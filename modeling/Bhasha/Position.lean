/-!
# Positions in a source text

Lines and columns count from one, and a column counts characters.  A newline is the last
character of its line.
-/

namespace Bhasha

/-- A line and a column of a source text. -/
structure Position where
  line : Nat
  column : Nat
deriving DecidableEq

namespace Position

/-- The position of the first character. -/
def start : Position := ⟨1, 1⟩

/-- The position after a character. -/
def next (position : Position) (c : Char) : Position :=
  if c = '\n' then ⟨position.line + 1, 1⟩ else ⟨position.line, position.column + 1⟩

/-- The position after some characters. -/
def after (position : Position) (text : List Char) : Position :=
  text.foldl next position

@[simp] theorem after_nil (position : Position) : position.after [] = position :=
  rfl

@[simp] theorem after_cons (position : Position) (c : Char) (text : List Char) :
    position.after (c :: text) = (position.next c).after text :=
  rfl

theorem after_append (position : Position) (first second : List Char) :
    position.after (first ++ second) = (position.after first).after second :=
  List.foldl_append

end Position

end Bhasha
