import Bhasha.Table
import Bhasha.Value

/-!
# Scopes

Names are looked up from the innermost scope outwards.  The global scope is always there: it
can be neither left nor removed.
-/

namespace Bhasha

/-- The names of one scope. -/
abbrev Frame := Table Value

/-- The scopes around a place of a program, the inner ones from the innermost outwards. -/
structure Scopes where
  inner : List Frame := []
  outermost : Frame := .empty

namespace Scopes

/-- The scopes from the innermost outwards. -/
def frames (scopes : Scopes) : List Frame :=
  scopes.inner ++ [scopes.outermost]

def push (scopes : Scopes) : Scopes :=
  { scopes with inner := .empty :: scopes.inner }

/-- Leaves the innermost scope, unless it is the global one. -/
def pop (scopes : Scopes) : Scopes :=
  { scopes with inner := scopes.inner.tail }

/-- The value of a name in the first of some scopes that has it. -/
def getIn (name : String) : List Frame → Option Value
  | [] => none
  | frame :: rest =>
      match frame.get? name with
      | some value => some value
      | none => getIn name rest

def get? (scopes : Scopes) (name : String) : Option Value :=
  getIn name scopes.frames

def define (scopes : Scopes) (name : String) (value : Value) : Scopes :=
  match scopes.inner with
  | [] => { scopes with outermost := scopes.outermost.insert name value }
  | frame :: rest => { scopes with inner := frame.insert name value :: rest }

/-- Rebinds a name in the first of some scopes that has it. -/
def assignIn (name : String) (value : Value) : List Frame → Option (List Frame)
  | [] => none
  | frame :: rest =>
      if frame.contains name then some (frame.insert name value :: rest)
      else (assignIn name value rest).map (frame :: ·)

/-- Rebinds a name in the nearest scope that has it. -/
def assign? (scopes : Scopes) (name : String) (value : Value) : Option Scopes :=
  match assignIn name value scopes.inner with
  | some inner => some { scopes with inner := inner }
  | none =>
      if scopes.outermost.contains name then
        some { scopes with outermost := scopes.outermost.insert name value }
      else none

@[simp] theorem pop_push (scopes : Scopes) : scopes.push.pop = scopes :=
  rfl

@[simp] theorem get?_push (scopes : Scopes) (name : String) :
    scopes.push.get? name = scopes.get? name :=
  rfl

theorem get?_define (scopes : Scopes) (name other : String) (value : Value) :
    (scopes.define name value).get? other =
      if other = name then some value else scopes.get? other := by
  obtain ⟨inner, outermost⟩ := scopes
  cases inner with
  | nil =>
      by_cases hname : other = name <;>
        simp [define, get?, frames, getIn, Table.get?_insert, hname]
  | cons frame rest =>
      by_cases hname : other = name <;>
        simp [define, get?, frames, getIn, Table.get?_insert, hname]

end Scopes

end Bhasha
