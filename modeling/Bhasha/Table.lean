/-!
# Tables

A table gives names to things and remembers the order in which the names came.  Records,
scopes and the functions of a program are tables.
-/

namespace Bhasha

/-- Names and what they stand for, in the order in which the names came. -/
structure Table (α : Type) where
  entries : List (String × α) := []

namespace Table

variable {α : Type}

def empty : Table α := {}

instance : EmptyCollection (Table α) := ⟨empty⟩

def names (table : Table α) : List String :=
  table.entries.map Prod.fst

/-- What a name stands for in the first of some entries that has it. -/
def getEntry? (name : String) : List (String × α) → Option α
  | [] => none
  | (other, thing) :: rest => if other = name then some thing else getEntry? name rest

def get? (table : Table α) (name : String) : Option α :=
  getEntry? name table.entries

def contains (table : Table α) (name : String) : Bool :=
  (table.get? name).isSome

/-- The entries with a name given a new meaning: in its place if it is there, else at the
end. -/
def insertEntry (name : String) (thing : α) : List (String × α) → List (String × α)
  | [] => [(name, thing)]
  | (other, old) :: rest =>
      if other = name then (name, thing) :: rest
      else (other, old) :: insertEntry name thing rest

/-- The table with a name given a new meaning. -/
def insert (table : Table α) (name : String) (thing : α) : Table α where
  entries := insertEntry name thing table.entries

/-- The table of some entries, inserted in turn. -/
def ofList (entries : List (String × α)) : Table α :=
  entries.foldl (fun table entry => table.insert entry.1 entry.2) empty

@[simp] theorem get?_empty (name : String) : (empty : Table α).get? name = none :=
  rfl

theorem getEntry?_insertEntry (name other : String) (thing : α) (entries : List (String × α)) :
    getEntry? other (insertEntry name thing entries) =
      if other = name then some thing else getEntry? other entries := by
  induction entries with
  | nil => simp [insertEntry, getEntry?, eq_comm]
  | cons entry rest ih =>
      obtain ⟨key, old⟩ := entry
      by_cases hkey : key = name
      · subst hkey
        simp only [insertEntry, getEntry?, if_true, eq_comm]
        split <;> rfl
      · by_cases hother : key = other
        · have hne : other ≠ name := fun h => hkey (hother.trans h)
          simp [insertEntry, getEntry?, hother, hne]
        · simp [insertEntry, getEntry?, hkey, hother, ih]

theorem get?_insert (table : Table α) (name other : String) (thing : α) :
    (table.insert name thing).get? other =
      if other = name then some thing else table.get? other :=
  getEntry?_insertEntry name other thing table.entries

theorem map_fst_insertEntry (name : String) (thing : α) (entries : List (String × α)) :
    (insertEntry name thing entries).map Prod.fst =
      if name ∈ entries.map Prod.fst then entries.map Prod.fst
      else entries.map Prod.fst ++ [name] := by
  induction entries with
  | nil => simp [insertEntry]
  | cons entry rest ih =>
      obtain ⟨key, old⟩ := entry
      by_cases hkey : key = name
      · simp [insertEntry, hkey]
      · have hne : name ≠ key := fun h => hkey h.symm
        simp only [insertEntry, hkey, if_false, List.map_cons, ih, List.mem_cons, hne, false_or]
        split <;> rfl

/-- A name that is already there keeps its place, and a new one comes last. -/
theorem names_insert (table : Table α) (name : String) (thing : α) :
    (table.insert name thing).names =
      if name ∈ table.names then table.names else table.names ++ [name] :=
  map_fst_insertEntry name thing table.entries

end Table

end Bhasha
