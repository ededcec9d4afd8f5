import Bhasha.Number.Format
import Bhasha.Text.Quoted
import Bhasha.Store

/-!
# The text of a value

A text stands for itself, and inside a container it is quoted.  A container shows its contents;
where it is met again inside itself an ellipsis takes its place.  The containers around a place
are its path.  A path never holds an address twice, so it is no longer than the store is large,
and that bounds the depth to which containers have to be followed.
-/

namespace Bhasha

namespace Value

/-- Parts with a comma and a space between them. -/
def commaSeparated (parts : List (List Char)) : List Char :=
  [',', ' '].intercalate parts

/-- The text of a list inside itself. -/
def listEllipsis : List Char := ['[', '.', '.', '.', ']']

/-- The text of a record inside itself. -/
def recordEllipsis : List Char := ['{', '.', '.', '.', '}']

def booleanText (value : Bool) : List Char :=
  if value then ['t', 'r', 'u', 'e'] else ['f', 'a', 'l', 's', 'e']

def nullText : List Char := ['n', 'u', 'l', 'l']

/-- The text of a value inside the containers of a path, which are followed no deeper than
`depth`. -/
def innerText (store : Store) (depth : Nat) (path : List Address) (value : Value) : List Char :=
  match value with
  | number value => Number.digits value
  | text value => Text.quoted value.toList
  | boolean value => booleanText value
  | null => nullText
  | list address =>
      if address ∈ path then listEllipsis
      else
        match depth with
        | 0 => listEllipsis
        | depth + 1 =>
            '[' :: commaSeparated
              ((store.items address).toList.map (innerText store depth (address :: path))) ++ [']']
  | record address =>
      if address ∈ path then recordEllipsis
      else
        match depth with
        | 0 => recordEllipsis
        | depth + 1 =>
            '{' :: commaSeparated
              ((store.fields address).entries.map fun (key, value) =>
                key.toList ++ ':' :: ' ' :: innerText store depth (address :: path) value) ++ ['}']

/-- The text of a value. -/
def display (store : Store) : Value → String
  | text value => value
  | value => String.ofList (innerText store store.size [] value)

/-- Whether showing a value inside the containers of a path reads the contents of the container
at `target`. -/
def readsWithin (store : Store) (target : Address) (depth : Nat) (path : List Address)
    (value : Value) : Bool :=
  match value.address? with
  | none => false
  | some address =>
      if address ∈ path then false
      else if address = target then true
      else
        match depth with
        | 0 => false
        | depth + 1 =>
            (store.contents address).any (readsWithin store target depth (address :: path))

/-- Whether showing a value reads the contents of the container at `target`. -/
def displayReads (store : Store) (target : Address) (value : Value) : Bool :=
  readsWithin store target store.size [] value

end Value

end Bhasha
