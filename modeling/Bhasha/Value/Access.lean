import Bhasha.Value.Operation

/-!
# Reading and writing the parts of values

Lists are read and written by position, records by the text of any value, and texts are read by
position.  Reading where there is nothing gives null.  Writing behind the end of a list fills the
gap with null.
-/

namespace Bhasha

namespace Value

/-- The position that a value stands for as an index. -/
def position? : Value → Option Nat
  | number value => Number.index? value
  | _ => none

/-- The last position at which a list can be written. -/
def greatestListIndex : Nat := Nat.pow 2 32 - 1

/-- The part of a value at an index. -/
def readIndex (store : Store) (target index : Value) (line : Nat) : Except Fault Value :=
  match target with
  | list address =>
      .ok ((index.position?.bind fun position => (store.items address)[position]?).getD null)
  | record address => .ok (((store.fields address).get? (index.display store)).getD null)
  | text value =>
      .ok ((index.position?.bind fun position => value.toList[position]?).elim null
        fun c => text c.toString)
  | other => .error (.ofType (.notIndexable other.type) line)

/-- The effect of writing a part of a value at an index. -/
def writeIndex (store : Store) (target index value : Value) (line : Nat) : Except Halt Effect :=
  match target with
  | list address =>
      match index.position? with
      | some position =>
          if position ≤ greatestListIndex then .ok (.setItem address position value)
          else .error (.fault ⟨.invalidIndex (index.display store), line⟩)
      | none => .error (.fault ⟨.invalidIndex (index.display store), line⟩)
  | record address =>
      if index.displayReads store address then .error .fatal
      else .ok (.setField address (index.display store) value)
  | other => .error (.fault (.ofType (.notWritableByIndex other.type) line))

/-- The number of characters of a text. -/
def textLength (value : String) : Value :=
  number (Number.ofNat value.length)

/-- The property of a value.  Lists and texts have a length and no other. -/
def readProperty (store : Store) (target : Value) (name : String) (line : Nat) :
    Except Fault Value :=
  match target with
  | record address => .ok (((store.fields address).get? name).getD null)
  | list address =>
      .ok (if name = "length" then number (Number.ofNat (store.items address).size) else null)
  | text value => .ok (if name = "length" then textLength value else null)
  | other => .error (.ofType (.noPropertyToRead name other.type) line)

/-- The effect of writing a property of a record. -/
def writeProperty (target : Value) (name : String) (value : Value) (line : Nat) :
    Except Halt Effect :=
  match target with
  | record address => .ok (.setField address name value)
  | other => .error (.fault (.ofType (.noPropertyToWrite name other.type) line))

end Value

end Bhasha
