import Bhasha.Proofs.Store.Closed
import Bhasha.Value.Conversion
import Mathlib.Logic.Relation

/-!
# Chains of lists with one item

The number of a list of one item is the number of the item, so converting a value follows a chain
of such lists.  A chain that does not close comes to its end within as many lists as there are
containers.  One that closes has no number, however far it is followed.  So a depth that is not
smaller than the store gives the same number as any other one.
-/

namespace Bhasha

/-- Different containers have been followed, and the depth that is left is enough for all others. -/
structure Store.Passes (store : Store) (path : List Address) (depth : Nat) : Prop where
  nodup : path.Nodup
  taken : ∀ address ∈ path, address < store.size
  enough : store.size ≤ depth + path.length

theorem Store.passes_nil {store : Store} {depth : Nat} (h : store.size ≤ depth) :
    store.Passes [] depth :=
  ⟨List.nodup_nil, List.forall_mem_nil _, h⟩

/-- There is depth left for a container that has not been followed yet. -/
theorem Store.Passes.step {store : Store} {path : List Address} {depth : Nat}
    (h : store.Passes path depth) {address : Address} (haddress : address < store.size)
    (hnew : address ∉ path) : ∃ rest, depth = rest + 1 ∧ store.Passes (address :: path) rest := by
  have hnodup : (address :: path).Nodup := List.nodup_cons.mpr ⟨hnew, h.nodup⟩
  have htaken : ∀ other ∈ address :: path, other < store.size :=
    List.forall_mem_cons.mpr ⟨haddress, h.taken⟩
  have hlength := Store.length_le_size hnodup htaken
  have henough := h.enough
  rw [List.length_cons] at hlength
  refine ⟨depth - 1, by omega, hnodup, htaken, ?_⟩
  rw [List.length_cons]
  omega

/-- The value is a list, and the other value is its only item. -/
def Value.Wraps (store : Store) (value item : Value) : Prop :=
  ∃ address, value = .list address ∧ (store.items address).toList = [item]

namespace Value

open Relation

variable {store : Store} {value item : Value}

/-- A conversion that enters a chain is cut off in it, or goes on behind it less deep. -/
theorem numberWithin_of_chain (h : TransGen (Wraps store) value item) (depth : Nat) :
    numberWithin store depth value = Number.nan ∨
      ∃ rest < depth, numberWithin store depth value = numberWithin store rest item := by
  induction h using TransGen.head_induction_on generalizing depth with
  | single hwraps =>
      obtain ⟨address, rfl, hitems⟩ := hwraps
      cases depth with
      | zero => exact .inl rfl
      | succ depth => exact .inr ⟨depth, by omega, by simp only [numberWithin, hitems]⟩
  | head hwraps _ ih =>
      obtain ⟨address, rfl, hitems⟩ := hwraps
      cases depth with
      | zero => exact .inl rfl
      | succ depth =>
          simp only [numberWithin, hitems]
          rcases ih depth with hcut | ⟨rest, hrest, hnumber⟩
          · exact .inl hcut
          · exact .inr ⟨rest, by omega, hnumber⟩

/-- A chain that closes has no number. -/
theorem numberWithin_of_circle (h : TransGen (Wraps store) value value) (depth : Nat) :
    numberWithin store depth value = Number.nan := by
  induction depth using Nat.strongRecOn with
  | ind depth ih =>
      rcases numberWithin_of_chain h depth with hcut | ⟨rest, hrest, hnumber⟩
      · exact hcut
      · rw [hnumber, ih rest hrest]

theorem numberWithin_eq_of_path (hclosed : store.Closed (· < store.size)) {depth other : Nat}
    {path : List Address} (hvalue : value.Within (· < store.size))
    (hpath : ∀ address ∈ path, TransGen (Wraps store) (.list address) value)
    (hdepth : store.Passes path depth) (hother : store.Passes path other) :
    numberWithin store depth value = numberWithin store other value := by
  -- The path holds the lists that have been followed to the value.  As long as no list is met
  -- again, both depths have room for one more.
  induction depth using Nat.strongRecOn generalizing other path value with
  | ind depth ih =>
      cases value with
      | list address =>
          by_cases hmem : address ∈ path
          · have hcircle := hpath address hmem
            rw [numberWithin_of_circle hcircle, numberWithin_of_circle hcircle]
          · have haddress : address < store.size := hvalue address rfl
            obtain ⟨depth, rfl, hinner⟩ := hdepth.step haddress hmem
            obtain ⟨other, rfl, hinner'⟩ := hother.step haddress hmem
            simp only [numberWithin]
            split
            next => rfl
            next item hitems =>
              have hwraps : Wraps store (.list address) item := ⟨address, rfl, hitems⟩
              have hitem : item ∈ store.contents address := by
                apply Store.mem_contents_of_mem_items
                rw [← Array.mem_toList_iff, hitems]
                exact List.mem_singleton_self item
              have hlonger : ∀ before ∈ address :: path,
                  TransGen (Wraps store) (.list before) item :=
                List.forall_mem_cons.mpr
                  ⟨.single hwraps, fun before hbefore => (hpath before hbefore).tail hwraps⟩
              exact ih depth (Nat.lt_succ_self depth) (hclosed address haddress item hitem) hlonger
                hinner hinner'
            next => rfl
      | _ => simp only [numberWithin]

/-- Whatever depth is large enough gives the number of a value. -/
theorem numberWithin_eq_toNumber (hclosed : store.Closed (· < store.size))
    (hvalue : value.Within (· < store.size)) {depth : Nat} (hdepth : store.size ≤ depth) :
    numberWithin store depth value = value.toNumber store :=
  numberWithin_eq_of_path hclosed hvalue (List.forall_mem_nil _) (Store.passes_nil hdepth)
    (Store.passes_nil (Nat.le_refl _))

end Value

end Bhasha
