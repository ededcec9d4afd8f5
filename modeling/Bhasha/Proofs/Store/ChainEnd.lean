import Bhasha.Proofs.Store.Chain
import Bhasha.Proofs.Store.Taken

/-!
# Where a chain of lists ends

A list of one item leads on to the item, and no other value leads on.  So a value either leads to a
value that does not lead on, and converts as that one does, or its chain goes on for ever.  As there
are finitely many lists, such a chain comes back to a list that it has passed, and only such a chain
does: to remember the lists that have been opened is enough to find out.
-/

namespace Bhasha

variable {store : Store} {value item last : Value}

theorem Value.FitsIn.within (h : value.FitsIn store) : value.Within (· < store.size) := by
  cases value with
  | list address =>
      intro other hother
      cases hother
      obtain ⟨items, hitems⟩ := h
      exact (Array.getElem?_eq_some_iff.mp hitems).1
  | record address =>
      intro other hother
      cases hother
      obtain ⟨fields, hfields⟩ := h
      exact (Array.getElem?_eq_some_iff.mp hfields).1
  | _ => exact within_of_plain rfl

theorem Store.Fits.closed (h : store.Fits) : store.Closed (· < store.size) :=
  fun address _ item hitem => (h address item hitem).within

namespace Value

open Relation

/-- The number that a value converts to, found in rounds.  Each round looks at one value; a list of
one item is remembered and the next round looks at the item, unless the list has been seen before.
Nothing, if there are too few rounds. -/
def numberPast? (store : Store) : Nat → List Address → Value → Option Float
  | 0, _, _ => none
  | rounds + 1, seen, value =>
      match value with
      | number value => some value
      | text value => some (Number.parse value)
      | boolean value => some (booleanNumber value)
      | null => some 0
      | record _ => some Number.nan
      | list address =>
          if address ∈ seen then some Number.nan
          else
            match (store.items address).toList with
            | [] => some 0
            | [item] => numberPast? store rounds (address :: seen) item
            | _ => some Number.nan

/-- The number that a value converts to if it does not lead on. -/
def endNumber (store : Store) : Value → Float
  | number value => value
  | text value => Number.parse value
  | boolean value => booleanNumber value
  | null => 0
  | record _ => Number.nan
  | list address => if store.items address = #[] then 0 else Number.nan

/-- The chain of a value never comes to a value that does not lead on. -/
def Endless (store : Store) (value : Value) : Prop :=
  ∀ last, ReflTransGen (Wraps store) value last → ∃ next, last.Wraps store next

theorem Wraps.mem_contents {address : Address} (h : (list address).Wraps store item) :
    item ∈ store.contents address := by
  obtain ⟨other, hother, hitems⟩ := h
  cases hother
  apply Store.mem_contents_of_mem_items
  rw [← Array.mem_toList_iff, hitems]
  exact List.mem_singleton_self item

theorem Wraps.unique {other : Value} (h : value.Wraps store item) (hother : value.Wraps store other) :
    item = other := by
  obtain ⟨address, rfl, hitems⟩ := h
  obtain ⟨address', haddress, hitems'⟩ := hother
  cases haddress
  rw [hitems] at hitems'
  exact (List.cons.inj hitems').1

theorem Wraps.within (hclosed : store.Closed (· < store.size))
    (hvalue : value.Within (· < store.size)) (h : value.Wraps store item) :
    item.Within (· < store.size) := by
  obtain ⟨address, rfl, hitems⟩ := h
  exact hclosed address (hvalue address rfl) item (Wraps.mem_contents ⟨address, rfl, hitems⟩)

/-- What a circle leads to lies on the circle. -/
theorem circle_of_leads (hcircle : TransGen (Wraps store) value value)
    (h : ReflTransGen (Wraps store) value last) : TransGen (Wraps store) last last := by
  induction h with
  | refl => exact hcircle
  | tail _ hwraps ih =>
      obtain ⟨next, hnext, hback⟩ := TransGen.head'_iff.mp ih
      cases hwraps.unique hnext
      exact TransGen.tail' hback hwraps

/-- A list that does not lead on is empty, or holds more than one item. -/
theorem items_of_end {address : Address} (h : ∀ next, ¬(list address).Wraps store next) :
    (store.items address).toList = [] ∨
      ∃ first second rest, (store.items address).toList = first :: second :: rest := by
  match hitems : (store.items address).toList with
  | [] => exact .inl rfl
  | [item] => exact absurd ⟨address, rfl, hitems⟩ (h item)
  | first :: second :: rest => exact .inr ⟨first, second, rest, rfl⟩

theorem numberWithin_of_end (h : ∀ next, ¬value.Wraps store next) (depth : Nat) :
    numberWithin store (depth + 1) value = value.endNumber store := by
  cases value with
  | list address =>
      rcases items_of_end h with hitems | ⟨first, second, rest, hitems⟩ <;>
        simp [numberWithin, endNumber, ← Array.toList_eq_nil_iff, hitems]
  | _ => rfl

variable {rounds : Nat} {seen : List Address} {address : Address}

theorem numberPast?_of_end (h : ∀ next, ¬value.Wraps store next)
    (hseen : ∀ address, value = .list address → address ∉ seen) :
    numberPast? store (rounds + 1) seen value = some (value.endNumber store) := by
  cases value with
  | list address =>
      rcases items_of_end h with hitems | ⟨first, second, rest, hitems⟩ <;>
        simp [numberPast?, endNumber, hseen address rfl, ← Array.toList_eq_nil_iff, hitems]
  | _ => simp only [numberPast?, endNumber]

theorem numberPast?_of_wraps (h : (list address).Wraps store item) (hseen : address ∉ seen) :
    numberPast? store (rounds + 1) seen (list address) =
      numberPast? store rounds (address :: seen) item := by
  obtain ⟨other, hother, hitems⟩ := h
  cases hother
  simp only [numberPast?, if_neg hseen, hitems]

theorem numberPast?_of_seen (hseen : address ∈ seen) :
    numberPast? store (rounds + 1) seen (list address) = some Number.nan := by
  simp only [numberPast?, if_pos hseen]

/-- A list that leads on has been seen, and lies on a circle, or there is depth left for what it
leads to. -/
theorem exists_next_of_wraps {depth : Nat} (hvalue : value.Within (· < store.size))
    (hseen : ∀ address ∈ seen, TransGen (Wraps store) (.list address) value)
    (hdepth : store.Passes seen depth) (h : value.Wraps store item) :
    ∃ address, value = .list address ∧
      (address ∈ seen ∧ TransGen (Wraps store) value value ∨
        address ∉ seen ∧ ∃ rest, depth = rest + 1 ∧ store.Passes (address :: seen) rest ∧
          ∀ other ∈ address :: seen, TransGen (Wraps store) (.list other) item) := by
  obtain ⟨address, rfl, -⟩ := id h
  refine ⟨address, rfl, ?_⟩
  by_cases hmem : address ∈ seen
  · exact .inl ⟨hmem, hseen address hmem⟩
  · obtain ⟨rest, hrest, hpasses⟩ := hdepth.step (hvalue address rfl) hmem
    refine .inr ⟨hmem, rest, hrest, hpasses, List.forall_mem_cons.mpr ⟨.single h, ?_⟩⟩
    exact fun other hother => (hseen other hother).tail h

section

variable (hclosed : store.Closed (· < store.size)) (hvalue : value.Within (· < store.size))

include hclosed hvalue

/-- A value that leads on converts as the one that it leads to. -/
theorem toNumber_of_wraps (h : value.Wraps store item) :
    value.toNumber store = item.toNumber store := by
  rw [← numberWithin_eq_toNumber hclosed hvalue (Nat.le_succ store.size)]
  obtain ⟨address, rfl, hitems⟩ := h
  simp only [numberWithin, hitems]
  rfl

theorem toNumber_of_leads (h : ReflTransGen (Wraps store) value last) :
    value.toNumber store = last.toNumber store ∧ last.Within (· < store.size) := by
  induction h with
  | refl => exact ⟨rfl, hvalue⟩
  | tail _ hwraps ih =>
      obtain ⟨hnumber, hwithin⟩ := ih
      exact ⟨hnumber.trans (toNumber_of_wraps hclosed hwithin hwraps), hwraps.within hclosed hwithin⟩

theorem toNumber_of_circle {circle : Value} (hleads : ReflTransGen (Wraps store) value circle)
    (hcircle : TransGen (Wraps store) circle circle) : value.toNumber store = Number.nan := by
  rw [(toNumber_of_leads hclosed hvalue hleads).1]
  exact numberWithin_of_circle hcircle store.size

theorem toNumber_of_end (h : ∀ next, ¬value.Wraps store next) :
    value.toNumber store = value.endNumber store := by
  rw [← numberWithin_eq_toNumber hclosed hvalue (Nat.le_succ store.size)]
  exact numberWithin_of_end h store.size

/-- The rounds find the number, if there are more of them than lists that have not been seen. -/
theorem numberPast?_eq {depth : Nat}
    (hseen : ∀ address ∈ seen, TransGen (Wraps store) (.list address) value)
    (hdepth : store.Passes seen depth) (hrounds : depth < rounds) :
    numberPast? store rounds seen value = some (value.toNumber store) := by
  induction rounds generalizing depth seen value with
  | zero => exact absurd hrounds (Nat.not_lt_zero depth)
  | succ rounds ih =>
      by_cases hnext : ∃ next, value.Wraps store next
      · obtain ⟨next, hwraps⟩ := hnext
        obtain ⟨address, rfl, ⟨hmem, hcircle⟩ | ⟨hmem, rest, rfl, hrest, hlonger⟩⟩ :=
          exists_next_of_wraps hvalue hseen hdepth hwraps
        · rw [numberPast?_of_seen hmem, toNumber_of_circle hclosed hvalue .refl hcircle]
        · rw [numberPast?_of_wraps hwraps hmem, toNumber_of_wraps hclosed hvalue hwraps]
          exact ih (hwraps.within hclosed hvalue) hlonger hrest (Nat.lt_of_succ_lt_succ hrounds)
      · have hend : ∀ next, ¬value.Wraps store next := not_exists.mp hnext
        rw [toNumber_of_end hclosed hvalue hend]
        refine numberPast?_of_end hend ?_
        rintro address rfl hmem
        -- A list that has been seen lies on a circle, so it leads on.
        obtain ⟨next, hwraps, -⟩ := TransGen.head'_iff.mp (hseen address hmem)
        exact hend next hwraps

/-- There are only so many lists, so a chain that goes on comes back to one that it has passed. -/
theorem exists_circle_of_endless {depth : Nat}
    (hseen : ∀ address ∈ seen, TransGen (Wraps store) (.list address) value)
    (hdepth : store.Passes seen depth) (hendless : value.Endless store) :
    ∃ circle, ReflTransGen (Wraps store) value circle ∧ TransGen (Wraps store) circle circle := by
  induction depth generalizing seen value with
  | zero =>
      obtain ⟨next, hwraps⟩ := hendless value .refl
      obtain ⟨address, rfl, ⟨-, hcircle⟩ | ⟨-, rest, hrest, -⟩⟩ :=
        exists_next_of_wraps hvalue hseen hdepth hwraps
      · exact ⟨_, .refl, hcircle⟩
      · cases hrest
  | succ depth ih =>
      obtain ⟨next, hwraps⟩ := hendless value .refl
      obtain ⟨address, rfl, ⟨-, hcircle⟩ | ⟨-, rest, hrest, hpasses, hlonger⟩⟩ :=
        exists_next_of_wraps hvalue hseen hdepth hwraps
      · exact ⟨_, .refl, hcircle⟩
      · cases hrest
        obtain ⟨circle, hleads, hcircle⟩ := ih (hwraps.within hclosed hvalue) hlonger hpasses
          fun last hlast => hendless last (.head hwraps hlast)
        exact ⟨circle, .head hwraps hleads, hcircle⟩

end

theorem endless_of_circle {circle : Value} (hleads : ReflTransGen (Wraps store) value circle)
    (hcircle : TransGen (Wraps store) circle circle) : value.Endless store := by
  intro last hlast
  have hunique : Relator.RightUnique (Wraps store) := fun _ _ _ h hother => h.unique hother
  -- The chain is a single one, so the value lies before the circle or on it.
  have hround : ∃ end_, TransGen (Wraps store) last end_ := by
    rcases ReflTransGen.total_of_right_unique hunique hlast hleads with hbefore | hon
    · exact ⟨circle, TransGen.trans_right hbefore hcircle⟩
    · exact ⟨last, circle_of_leads hcircle hon⟩
  obtain ⟨end_, hround⟩ := hround
  obtain ⟨next, hwraps, -⟩ := TransGen.head'_iff.mp hround
  exact ⟨next, hwraps⟩

/-- A conversion that remembers the lists that it has opened comes to an end within as many rounds
as there are containers and one more, whether containers hold each other in circles or not.  If the
only items of lists of one item lead from the value to one that does not lead on, it converts as this
one: a number, a text, a boolean and null by themselves, an empty list as zero, and a record or a
list of more items has no number.  A chain that never ends, which is one that comes to a circle, has
no number either. -/
theorem toNumber_follows_chain (hstore : store.Fits) (hvalue : value.FitsIn store) :
    (∀ rounds, store.size < rounds →
      numberPast? store rounds [] value = some (value.toNumber store)) ∧
    (∀ last, ReflTransGen (Wraps store) value last → (∀ next, ¬last.Wraps store next) →
      value.toNumber store = last.endNumber store) ∧
    (value.Endless store → value.toNumber store = Number.nan) ∧
    (value.Endless store ↔ ∃ circle, ReflTransGen (Wraps store) value circle ∧
      TransGen (Wraps store) circle circle) := by
  have hclosed := hstore.closed
  have hwithin := hvalue.within
  have hpasses := Store.passes_nil (Nat.le_refl store.size)
  have hcircle : value.Endless store → ∃ circle, ReflTransGen (Wraps store) value circle ∧
      TransGen (Wraps store) circle circle :=
    exists_circle_of_endless hclosed hwithin (List.forall_mem_nil _) hpasses
  refine ⟨?_, ?_, ?_, hcircle, fun ⟨circle, hleads, hround⟩ => endless_of_circle hleads hround⟩
  · intro rounds hrounds
    exact numberPast?_eq hclosed hwithin (List.forall_mem_nil _) hpasses hrounds
  · intro last hleads hend
    obtain ⟨hnumber, hlast⟩ := toNumber_of_leads hclosed hwithin hleads
    rw [hnumber, toNumber_of_end hclosed hlast hend]
  · intro hendless
    obtain ⟨circle, hleads, hround⟩ := hcircle hendless
    exact toNumber_of_circle hclosed hwithin hleads hround

/-- A list leads to another one that holds itself, and a third one leads to a text through a list
that it shares with a record. -/
theorem toNumber_follows_chain_to_circle :
    let store : Store := ⟨#[.list #[.list 1], .list #[.list 1], .list #[.list 3],
      .list #[.text " 7 "], .record ⟨[("k", .list 3)]⟩]⟩
    store.Fits ∧ (Value.list 0).FitsIn store ∧ (Value.list 2).FitsIn store ∧
      (Value.list 0).Endless store ∧ (Value.list 0).toNumber store = Number.nan ∧
      numberPast? store 6 [] (.list 2) = some ((Value.list 2).toNumber store) ∧
      (Value.list 2).toNumber store = Number.parse " 7 " := by
  intro store
  have hstore : store.Fits := by
    intro address item hitem
    have hlt : address < 5 := Store.address_lt_size hitem
    match address, hlt with
    | 0, _ | 1, _ | 2, _ | 4, _ => exact List.mem_singleton.mp hitem ▸ ⟨_, rfl⟩
    | 3, _ => exact List.mem_singleton.mp hitem ▸ trivial
  have hcircle : Wraps store (.list 1) (.list 1) := ⟨1, rfl, rfl⟩
  have hshared : Wraps store (.list 3) (.text " 7 ") := ⟨3, rfl, rfl⟩
  have hfits : (Value.list 0).FitsIn store := ⟨_, rfl⟩
  have hfits' : (Value.list 2).FitsIn store := ⟨_, rfl⟩
  obtain ⟨-, -, hnan, hiff⟩ := toNumber_follows_chain hstore hfits
  obtain ⟨hrounds, hends, -, -⟩ := toNumber_follows_chain hstore hfits'
  have hendless : (Value.list 0).Endless store :=
    hiff.mpr ⟨.list 1, .single ⟨0, rfl, rfl⟩, .single hcircle⟩
  have hleads : ReflTransGen (Wraps store) (.list 2) (.text " 7 ") :=
    .head ⟨2, rfl, rfl⟩ (.single hshared)
  have hend : ∀ next, ¬(Value.text " 7 ").Wraps store next := by
    rintro next ⟨address, haddress, -⟩
    cases haddress
  exact ⟨hstore, hfits, hfits', hendless, hnan hendless, hrounds 6 (by decide),
    hends _ hleads hend⟩

end Value

end Bhasha
