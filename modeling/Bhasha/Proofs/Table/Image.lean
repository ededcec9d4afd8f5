import Bhasha.Table

/-!
# Images of tables

Exchanging every thing in a table for its image goes along with looking names up and with inserting
them, and so does leaving out some names for all others.
-/

namespace Bhasha

variable {α β : Type}

namespace Table

/-- The table with every thing exchanged for its image. -/
def map (change : α → β) (table : Table α) : Table β where
  entries := table.entries.map fun entry => (entry.1, change entry.2)

theorem getEntry?_map (change : α → β) (name : String) (entries : List (String × α)) :
    getEntry? name (entries.map fun entry => (entry.1, change entry.2)) =
      Option.map change ( getEntry? name entries) := by
  induction entries with
  | nil => rfl
  | cons entry rest ih =>
      by_cases hname : entry.1 = name <;> simp [hname, getEntry?, ih]

theorem get?_map (change : α → β) (table : Table α) (name : String) :
    (table.map change).get? name = (table.get? name).map change :=
  getEntry?_map change name table.entries

theorem insertEntry_map (change : α → β) (name : String) (thing : α)
    (entries : List (String × α)) :
    insertEntry name (change thing) (entries.map fun entry => (entry.1, change entry.2)) =
      (insertEntry name thing entries).map fun entry => (entry.1, change entry.2) := by
  induction entries with
  | nil => rfl
  | cons entry rest ih =>
      by_cases hname : entry.1 = name <;> simp [insertEntry, hname, ih]

theorem insert_map (change : α → β) (table : Table α) (name : String) (thing : α) :
    (table.map change).insert name (change thing) = (table.insert name thing).map change := by
  unfold insert map
  rw [insertEntry_map]

theorem map_eq_self {change : α → α} (h : ∀ thing, change thing = thing) (table : Table α) :
    table.map change = table := by
  simp [map, h]

/-- The table without the names that are hidden. -/
def without (hidden : String → Bool) (table : Table α) : Table α where
  entries := table.entries.filter fun entry => !hidden entry.1

variable {hidden : String → Bool} {name : String}

theorem getEntry?_without (h : hidden name = false) (entries : List (String × α)) :
    getEntry? name (entries.filter fun entry => !hidden entry.1) = getEntry? name entries := by
  induction entries with
  | nil => rfl
  | cons entry rest ih =>
      by_cases hname : entry.1 = name
      · simp [hname, getEntry?, h]
      · cases hentry : hidden entry.1 <;> simp [hname, getEntry?, hentry, ih]

theorem get?_without (h : hidden name = false) (table : Table α) :
    (table.without hidden).get? name = table.get? name :=
  getEntry?_without h table.entries

theorem insertEntry_without (h : hidden name = false) (thing : α) (entries : List (String × α)) :
    insertEntry name thing (entries.filter fun entry => !hidden entry.1) =
      (insertEntry name thing entries).filter fun entry => !hidden entry.1 := by
  induction entries with
  | nil => simp [insertEntry, h]
  | cons entry rest ih =>
      by_cases hname : entry.1 = name
      · simp [insertEntry, hname, h]
      · cases hentry : hidden entry.1 <;> simp [insertEntry, hname, hentry, ih]

theorem insert_without (h : hidden name = false) (table : Table α) (thing : α) :
    (table.without hidden).insert name thing = (table.insert name thing).without hidden := by
  unfold insert without
  rw [insertEntry_without h]

theorem insertEntry_hidden (h : hidden name = true) (thing : α) (entries : List (String × α)) :
    (insertEntry name thing entries).filter (fun entry => !hidden entry.1) =
      entries.filter fun entry => !hidden entry.1 := by
  induction entries with
  | nil => simp [insertEntry, h]
  | cons entry rest ih =>
      by_cases hname : entry.1 = name
      · simp [insertEntry, hname, h]
      · simp [List.filter_cons, insertEntry, hname, ih]

/-- What is inserted under a hidden name is not seen. -/
theorem insert_hidden (h : hidden name = true) (table : Table α) (thing : α) :
    (table.insert name thing).without hidden = table.without hidden := by
  unfold insert without
  rw [insertEntry_hidden h]

theorem without_eq_self (h : ∀ name, hidden name = false) (table : Table α) :
    table.without hidden = table := by
  have hentries : table.entries.filter (fun entry => !hidden entry.1) = table.entries :=
    List.filter_eq_self.mpr (by simp [h])
  rw [without, hentries]

end Table

end Bhasha
