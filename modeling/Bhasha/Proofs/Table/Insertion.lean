import Bhasha.Table
import Mathlib.Data.List.Induction
import Mathlib.Data.List.Nodup

/-!
# Tables that are made by insertions

An insertion leaves all names where they are, and adds at most one behind them.  So the names of a
table made by insertions are distinct and stand in the order in which they were first inserted,
and each of them stands for what was inserted last.
-/

namespace Bhasha

namespace Table

variable {α : Type}

theorem prefix_names_insert (table : Table α) (name : String) (thing : α) :
    table.names <+: (table.insert name thing).names := by
  rw [names_insert]
  split
  · exact List.prefix_rfl
  · exact List.prefix_append _ _

theorem nodup_names_insert {table : Table α} (h : table.names.Nodup) (name : String) (thing : α) :
    (table.insert name thing).names.Nodup := by
  rw [names_insert]
  by_cases hname : name ∈ table.names
  · rwa [if_pos hname]
  · rw [if_neg hname]
    rw [← List.concat_eq_append]
    exact List.Nodup.concat hname h

theorem ofList_concat (entries : List (String × α)) (name : String) (thing : α) :
    ofList (entries ++ [(name, thing)]) = (ofList entries).insert name thing :=
  List.foldl_concat ..

/-- The names stand in the order of their first insertion. -/
theorem names_ofList (entries : List (String × α)) :
    (ofList entries).names = (entries.map Prod.fst).eraseDups := by
  induction entries using List.reverseRecOn with
  | nil => rfl
  | append_singleton entries entry ih =>
      rw [ofList_concat, names_insert, ih, List.map_append, List.eraseDups_append]
      by_cases hname : entry.1 ∈ entries.map Prod.fst
      · simp [hname, List.removeAll]
      · simp [hname, List.removeAll, List.eraseDups_cons]

theorem mem_names_ofList (entries : List (String × α)) (name : String) :
    name ∈ (ofList entries).names ↔ name ∈ entries.map Prod.fst := by
  rw [names_ofList, List.mem_eraseDups]

theorem get?_ofList (entries : List (String × α)) (name : String) :
    (ofList entries).get? name = getEntry? name entries.reverse := by
  unfold ofList
  rw [← List.foldr_reverse]
  induction entries.reverse with
  | nil => rfl
  | cons entry rest ih =>
      rw [List.foldr_cons, get?_insert, ih]
      obtain ⟨other, thing⟩ := entry
      simp only [eq_comm, getEntry?]

theorem getEntry?_eq_none_iff (name : String) (entries : List (String × α)) :
    getEntry? name entries = none ↔ name ∉ entries.map Prod.fst := by
  induction entries with
  | nil => simp [ getEntry?]
  | cons entry rest ih =>
      by_cases hname : entry.1 = name
      · simp [hname, getEntry?]
      · have hne : name ≠ entry.1 := fun hsame => hname hsame.symm
        simp only [if_neg hname, getEntry?, ih, List.map_cons, List.mem_cons, hne, false_or]

theorem get?_eq_none_iff (table : Table α) (name : String) :
    table.get? name = none ↔ name ∉ table.names :=
  getEntry?_eq_none_iff name table.entries

theorem getEntry?_append (name : String) (first second : List (String × α)) :
    getEntry? name (first ++ second) =
      Option.or ( getEntry? name first) ( getEntry? name second) := by
  induction first with
  | nil => rfl
  | cons entry rest ih =>
      obtain ⟨other, thing⟩ := entry
      by_cases hname : other = name <;> simp [hname, getEntry?, ih]

/-- A name stands for what was inserted last. -/
theorem get?_ofList_of_last {later : List (String × α)} {name : String}
    (hlater : name ∉ later.map Prod.fst) (earlier : List (String × α)) (thing : α) :
    (ofList (earlier ++ (name, thing) :: later)).get? name = some thing := by
  have hnone := (getEntry?_eq_none_iff name later.reverse).mpr (by simpa using hlater)
  rw [get?_ofList, List.reverse_append, List.reverse_cons, List.append_assoc, getEntry?_append,
    hnone]
  simp [ getEntry?]

theorem get?_ofList_eq_none_iff (entries : List (String × α)) (name : String) :
    (ofList entries).get? name = none ↔ name ∉ entries.map Prod.fst := by
  rw [get?_eq_none_iff, mem_names_ofList]

end Table

end Bhasha
