import Bhasha.Value.Display
import Mathlib.Data.List.Perm.Subperm

/-!
# The containers that a value reaches

A value reaches the container that it stands for, and whatever the values inside that container
reach.  Containers may hold each other in circles.  Showing a value follows no container inside
itself, but it still comes to every container that the value reaches: a container that is reached
at all is reached without passing any container twice.
-/

namespace Bhasha

namespace Store

/-- A value reaches a container when following contents leads from one to the other. -/
inductive Reaches (store : Store) (target : Address) : Value → Prop where
  | here {value : Value} : value.address? = some target → Reaches store target value
  | inside {value item : Value} {address : Address} :
      value.address? = some address → item ∈ store.contents address →
      Reaches store target item → Reaches store target value

/-- A value reaches a container on a way that passes none of the given ones. -/
inductive ReachesAround (store : Store) (target : Address) (avoided : List Address) :
    Value → Prop where
  | here {value : Value} :
      value.address? = some target → target ∉ avoided → ReachesAround store target avoided value
  | inside {value item : Value} {address : Address} :
      value.address? = some address → address ∉ avoided → item ∈ store.contents address →
      ReachesAround store target avoided item → ReachesAround store target avoided value

variable {store : Store} {target : Address}

theorem Reaches.around {value : Value} (h : store.Reaches target value) :
    store.ReachesAround target [] value := by
  induction h with
  | here haddress => exact .here haddress (by simp)
  | inside haddress hitem _ ih => exact .inside haddress (by simp) hitem ih

/-- A way either avoids one more container, or what follows its last visit there does. -/
theorem ReachesAround.avoid
    {avoided : List Address} {value : Value} (h : store.ReachesAround target avoided value)
    {address : Address} (hne : address ≠ target) :
    store.ReachesAround target (address :: avoided) value ∨
      ∃ item ∈ store.contents address, store.ReachesAround target (address :: avoided) item := by
  induction h with
  | here haddress havoided =>
      refine .inl (.here haddress ?_)
      simp [hne.symm, havoided]
  | @inside value item other haddress havoided hitem _ ih =>
      rcases ih with hitem' | hlater
      · by_cases hother : other = address
        · subst hother
          exact .inr ⟨item, hitem, hitem'⟩
        · refine .inl (.inside haddress ?_ hitem hitem')
          simp [hother, havoided]
      · exact .inr hlater

theorem address_lt_size {address : Address} {item : Value} (h : item ∈ store.contents address) :
    address < store.size := by
  unfold contents at h
  cases hcontainer : store.get? address with
  | none =>
      rw [hcontainer] at h
      cases h
  | some container => exact (Array.getElem?_eq_some_iff.mp hcontainer).1

/-- Different addresses are no more than there are containers. -/
theorem length_le_size
    {path : List Address} (hnodup : path.Nodup) (hpath : ∀ address ∈ path, address < store.size) :
    path.length ≤ store.size := by
  have hsubset : path ⊆ List.range store.size := by
    intro address haddress
    exact List.mem_range.mpr (hpath address haddress)
  have hlength := (List.subperm_of_subset hnodup hsubset).length_le
  rwa [List.length_range] at hlength

end Store

namespace Value

variable {store : Store} {target : Address}

theorem readsWithin_eq_true {depth : Nat} {path : List Address} {value : Value} :
    readsWithin store target depth path value = true ↔
      ∃ address, value.address? = some address ∧ address ∉ path ∧
        (address = target ∨ ∃ rest, depth = rest + 1 ∧ ∃ item ∈ store.contents address,
          readsWithin store target rest (address :: path) item = true) := by
  conv => lhs; unfold readsWithin
  cases value.address? with
  | none => simp
  | some address =>
      by_cases hpath : address ∈ path
      · simp [hpath]
      · by_cases htarget : address = target
        · subst htarget
          simp [hpath]
        · cases depth with
          | zero => simp [htarget]
          | succ depth => simp [hpath, htarget]

theorem reaches_of_readsWithin
    {depth : Nat} {path : List Address} {value : Value}
    (h : readsWithin store target depth path value = true) : store.Reaches target value := by
  induction depth generalizing path value with
  | zero =>
      obtain ⟨address, haddress, -, rfl | ⟨rest, hrest, -⟩⟩ := readsWithin_eq_true.mp h
      · exact .here haddress
      · cases hrest
  | succ depth ih =>
      obtain ⟨address, haddress, -, rfl | ⟨rest, hrest, item, hitem, hreads⟩⟩ :=
        readsWithin_eq_true.mp h
      · exact .here haddress
      · cases hrest
        exact .inside haddress hitem (ih hreads)

/-- The depth is enough for a path through all containers, so nothing is cut off but what is on
the path already. -/
theorem readsWithin_of_reachesAround
    {depth : Nat} {path : List Address} {value : Value}
    (h : store.ReachesAround target path value) (hnodup : path.Nodup)
    (hpath : ∀ address ∈ path, address < store.size)
    (hdepth : store.size ≤ depth + path.length) :
    readsWithin store target depth path value = true := by
  induction depth generalizing path value with
  | zero =>
      rw [readsWithin_eq_true]
      cases h with
      | here haddress havoided => exact ⟨target, haddress, havoided, .inl rfl⟩
      | @inside _ item address haddress havoided hitem hrest =>
          -- The path holds all containers already, so this one cannot be new.
          have hlonger : (address :: path).length ≤ store.size := by
            apply Store.length_le_size
            · exact List.nodup_cons.mpr ⟨havoided, hnodup⟩
            · intro other hother
              rcases List.mem_cons.mp hother with rfl | hother
              · exact Store.address_lt_size hitem
              · exact hpath other hother
          rw [List.length_cons] at hlonger
          omega
  | succ depth ih =>
      rw [readsWithin_eq_true]
      cases h with
      | here haddress havoided => exact ⟨target, haddress, havoided, .inl rfl⟩
      | @inside _ item address haddress havoided hitem hrest =>
          refine ⟨address, haddress, havoided, ?_⟩
          by_cases htarget : address = target
          · exact .inl htarget
          · refine .inr ⟨depth, rfl, ?_⟩
            have hlast : ∃ item ∈ store.contents address,
                store.ReachesAround target (address :: path) item := by
              rcases hrest.avoid htarget with hrest | hlater
              · exact ⟨item, hitem, hrest⟩
              · exact hlater
            obtain ⟨last, hlastItem, hlast⟩ := hlast
            refine ⟨last, hlastItem, ih hlast (List.nodup_cons.mpr ⟨havoided, hnodup⟩) ?_ ?_⟩
            · intro other hother
              rcases List.mem_cons.mp hother with rfl | hother
              · exact Store.address_lt_size hitem
              · exact hpath other hother
            · rw [List.length_cons]
              omega

/-- Showing a value reads exactly the containers that it reaches. -/
theorem displayReads_iff (store : Store) (target : Address) (value : Value) :
    value.displayReads store target = true ↔ store.Reaches target value := by
  constructor
  · exact reaches_of_readsWithin
  · intro h
    exact readsWithin_of_reachesAround h.around List.nodup_nil (by simp) (Nat.le_refl _)

end Value

end Bhasha
