import Bhasha.Proofs.Store.Chain
import Bhasha.Proofs.Table.Image
import Bhasha.Value.Access
import Mathlib.Data.List.Nodup

/-!
# Stores with other addresses

The containers of a store stand in another store at the images of their addresses, and they hold
the images of what they held.  Different addresses have different images, and other containers may
stand between them.  What is added next gets the next free address on both sides, so the images of
the free addresses are known beforehand, and the same images serve for all that is added later.

The text of a value, its number and loose equality see addresses only to find containers and to
tell them apart, so they are the same on both sides.
-/

namespace Bhasha

/-- The value with the image of the address that it holds. -/
def Value.rename (image : Address → Address) : Value → Value
  | number value => number value
  | text value => text value
  | boolean value => boolean value
  | null => null
  | list address => list (image address)
  | record address => record (image address)

def Container.rename (image : Address → Address) : Container → Container
  | list items => list (items.map (·.rename image))
  | record fields => record (fields.map (·.rename image))

def Effect.rename (image : Address → Address) : Effect → Effect
  | nothing => nothing
  | setItem address position value => setItem (image address) position (value.rename image)
  | setField address key value => setField (image address) key (value.rename image)
  | appendItems address items => appendItems (image address) (items.map (·.rename image))
  | removeLast address => removeLast (image address)

/-- The containers of the left store stand in the right one at the images of their addresses, and
what is added to both gets addresses that correspond.  The left store holds no address that is not
taken. -/
structure Store.RenamedTo (image : Address → Address) (left right : Store) : Prop where
  injective : image.Injective
  get? : ∀ address, right.get? (image address) = (left.get? address).map (·.rename image)
  next : ∀ count, image (left.size + count) = right.size + count
  closed : left.Closed (· < left.size)

theorem Value.Within.mono {inside wider : Address → Prop} {value : Value} (h : value.Within inside)
    (hwider : ∀ address, inside address → wider address) : value.Within wider :=
  fun address haddress => hwider address (h address haddress)

variable {image : Address → Address} {left right : Store}

namespace Container

theorem contents_rename (image : Address → Address) (container : Container) :
    (container.rename image).contents = container.contents.map (·.rename image) := by
  cases container with
  | list items => simp [rename, contents]
  | record fields => simp [rename, contents, Table.map]

end Container

namespace Value

@[simp] theorem rename_number (value : Float) : (number value).rename image = number value :=
  rfl

@[simp] theorem rename_text (value : String) : (text value).rename image = text value :=
  rfl

@[simp] theorem rename_boolean (value : Bool) : (boolean value).rename image = boolean value :=
  rfl

@[simp] theorem rename_null : null.rename image = null :=
  rfl

@[simp] theorem rename_list (address : Address) :
    (list address).rename image = list (image address) :=
  rfl

@[simp] theorem rename_record (address : Address) :
    (record address).rename image = record (image address) :=
  rfl

@[simp] theorem address?_rename (image : Address → Address) (value : Value) :
    (value.rename image).address? = value.address?.map image := by
  cases value <;> rfl

@[simp] theorem type_rename (image : Address → Address) (value : Value) :
    (value.rename image).type = value.type := by
  cases value <;> rfl

@[simp] theorem truthy_rename (image : Address → Address) (value : Value) :
    (value.rename image).truthy = value.truthy := by
  cases value <;> rfl

@[simp] theorem position?_rename (image : Address → Address) (value : Value) :
    (value.rename image).position? = value.position? := by
  cases value <;> rfl

theorem rename_eq_null_iff {value : Value} : value.rename image = null ↔ value = null := by
  cases value <;> simp

theorem countBoolean_rename (image : Address → Address) (value : Value) :
    (value.rename image).countBoolean = value.countBoolean.rename image := by
  cases value <;> rfl

theorem equalsUncounted_rename (h : image.Injective) (value other : Value) :
    (value.rename image).equalsUncounted (other.rename image) = value.equalsUncounted other := by
  cases value <;> cases other <;> simp [equalsUncounted, h.eq_iff, Bool.beq_eq_decide_eq]

/-- Containers are compared by their addresses, and these are the same or different on both
sides. -/
theorem looselyEquals_rename (h : image.Injective) (value other : Value) :
    (value.rename image).looselyEquals (other.rename image) = value.looselyEquals other := by
  have huncounted := equalsUncounted_rename h value.countBoolean other.countBoolean
  rw [← countBoolean_rename, ← countBoolean_rename] at huncounted
  cases value <;> cases other <;> first | rfl | exact huncounted

end Value

namespace Store

theorem isSome_get? (store : Store) (address : Address) :
    (store.get? address).isSome ↔ address < store.size := by
  simp [get?, size]

namespace RenamedTo

variable (h : left.RenamedTo image right)

include h

theorem items (address : Address) :
    right.items (image address) = (left.items address).map (·.rename image) := by
  unfold Store.items
  rw [h.get?]
  cases left.get? address with
  | none => simp
  | some container => cases container <;> simp [Container.rename]

theorem fields (address : Address) :
    right.fields (image address) = (left.fields address).map (·.rename image) := by
  unfold Store.fields
  rw [h.get?]
  cases left.get? address with
  | none => rfl
  | some container => cases container <;> rfl

theorem contents (address : Address) :
    right.contents (image address) = (left.contents address).map (·.rename image) := by
  unfold Store.contents
  rw [h.get?]
  cases left.get? address with
  | none => rfl
  | some container => exact container.contents_rename image

theorem lt_size {address : Address} (haddress : address < left.size) :
    image address < right.size := by
  rw [← isSome_get?] at haddress ⊢
  rwa [h.get?, Option.isSome_map]

/-- The images of the addresses that are taken are different, so there are at least as many
containers on the right. -/
theorem size_le : left.size ≤ right.size := by
  have hnodup : ((List.range left.size).map image).Nodup :=
    List.Nodup.map h.injective List.nodup_range
  have htaken : ∀ address ∈ (List.range left.size).map image, address < right.size := by
    intro address haddress
    obtain ⟨original, horiginal, rfl⟩ := List.mem_map.mp haddress
    exact h.lt_size (List.mem_range.mp horiginal)
  have hlength := length_le_size hnodup htaken
  rwa [List.length_map, List.length_range] at hlength

end RenamedTo

end Store

namespace Value

open Store

variable (h : left.RenamedTo image right)

include h

/-- Following the same number of lists gives the same number. -/
theorem numberWithin_rename (depth : Nat) (value : Value) :
    numberWithin right depth (value.rename image) = numberWithin left depth value := by
  induction depth generalizing value with
  | zero => cases value <;> rfl
  | succ depth ih =>
      cases value with
      | list address =>
          simp only [rename_list, numberWithin, h.items, Array.toList_map]
          cases (left.items address).toList with
          | nil => rfl
          | cons item rest =>
              cases rest with
              | nil => exact ih item
              | cons second rest => rfl
      | _ => rfl

/-- There may be more containers on the right, but no more lists have to be opened. -/
theorem toNumber_rename {value : Value} (hvalue : value.Within (· < left.size)) :
    (value.rename image).toNumber right = value.toNumber left := by
  calc numberWithin right right.size (value.rename image)
      = numberWithin left right.size value := numberWithin_rename h right.size value
    _ = value.toNumber left := numberWithin_eq_toNumber h.closed hvalue h.size_le

/-- Both depths are enough for a path through all containers on the left, so neither text is cut
off but where a container is met inside itself. -/
theorem innerText_rename {depth other : Nat} {path : List Address} {value : Value}
    (hvalue : value.Within (· < left.size)) (hdepth : left.Passes path depth)
    (hother : left.Passes path other) :
    innerText right other (path.map image) (value.rename image) =
      innerText left depth path value := by
  induction depth using Nat.strongRecOn generalizing other path value with
  | ind depth ih =>
      cases value with
      | list address =>
          unfold innerText
          simp only [rename_list, List.mem_map_of_injective h.injective]
          by_cases hmem : address ∈ path
          · simp only [hmem, if_true]
          · have haddress : address < left.size := hvalue address rfl
            obtain ⟨depth, rfl, hinner⟩ := hdepth.step haddress hmem
            obtain ⟨other, rfl, hinner'⟩ := hother.step haddress hmem
            have htexts : ((left.items address).toList.map (rename image)).map
                  (innerText right other (image address :: path.map image)) =
                (left.items address).toList.map (innerText left depth (address :: path)) := by
              rw [List.map_map]
              apply List.map_congr_left
              intro item hitem
              have hinside := Store.mem_contents_of_mem_items (Array.mem_toList_iff.mp hitem)
              exact ih depth (Nat.lt_succ_self depth) (h.closed address haddress item hinside)
                hinner hinner'
            simp only [hmem, if_false, h.items, Array.toList_map, htexts]
      | record address =>
          unfold innerText
          simp only [rename_record, List.mem_map_of_injective h.injective]
          by_cases hmem : address ∈ path
          · simp only [hmem, if_true]
          · have haddress : address < left.size := hvalue address rfl
            obtain ⟨depth, rfl, hinner⟩ := hdepth.step haddress hmem
            obtain ⟨other, rfl, hinner'⟩ := hother.step haddress hmem
            simp only [hmem, if_false, h.fields, Table.map, List.map_map]
            refine congrArg (fun texts => '{' :: commaSeparated texts ++ ['}'])
              (List.map_congr_left ?_)
            intro entry hentry
            have hinside := Store.mem_contents_of_mem_fields hentry
            have htext : innerText right other (image address :: path.map image)
                (entry.2.rename image) = innerText left depth (address :: path) entry.2 :=
              ih depth (Nat.lt_succ_self depth) (h.closed address haddress entry.2 hinside)
                hinner hinner'
            simp only [Function.comp_apply, htext]
      | _ => simp [innerText]

theorem display_rename {value : Value} (hvalue : value.Within (· < left.size)) :
    (value.rename image).display right = value.display left := by
  have htext : innerText right right.size [] (value.rename image) =
      innerText left left.size [] value :=
    innerText_rename h hvalue (passes_nil (Nat.le_refl _)) (passes_nil h.size_le)
  cases value <;> first | rfl | exact congrArg String.ofList htext

theorem reaches_rename {target : Address} {value : Value} :
    right.Reaches (image target) (value.rename image) ↔ left.Reaches target value := by
  constructor
  · intro hreaches
    generalize hrenamed : value.rename image = renamed at hreaches
    induction hreaches generalizing value with
    | here haddress =>
        subst hrenamed
        rw [address?_rename] at haddress
        obtain ⟨address, hhere, himage⟩ := Option.map_eq_some_iff.mp haddress
        exact .here (h.injective himage ▸ hhere)
    | inside haddress hitem _ ih =>
        subst hrenamed
        rw [address?_rename] at haddress
        obtain ⟨address, hhere, rfl⟩ := Option.map_eq_some_iff.mp haddress
        rw [h.contents] at hitem
        obtain ⟨item, hinside, rfl⟩ := List.mem_map.mp hitem
        exact .inside hhere hinside (ih rfl)
  · intro hreaches
    induction hreaches with
    | here haddress => exact .here (by rw [address?_rename, haddress, Option.map_some])
    | @inside value item address haddress hitem _ ih =>
        refine .inside (by rw [address?_rename, haddress, Option.map_some]) ?_ ih
        rw [h.contents]
        exact List.mem_map_of_mem hitem

theorem displayReads_rename (target : Address) (value : Value) :
    (value.rename image).displayReads right (image target) = value.displayReads left target := by
  rw [Bool.eq_iff_iff, displayReads_iff, displayReads_iff, reaches_rename h]

end Value

theorem Effect.placeItem_rename (items : Array Value) (position : Nat) (value : Value) :
    placeItem (items.map (·.rename image)) position (value.rename image) =
      (placeItem items position value).map (·.rename image) := by
  simp [placeItem]

namespace Store

/-- A container that is added holds addresses that are taken, and from now on its own is, too. -/
theorem Closed.add_taken {store : Store} (h : store.Closed (· < store.size))
    {container : Container}
    (hcontainer : ∀ item ∈ container.contents, item.Within (· < store.size)) :
    (store.add container).Closed (· < (store.add container).size) := by
  have hlater : ∀ address, address < store.size → address < (store.add container).size := by
    intro address haddress
    rw [size_add]
    omega
  apply Closed.add
  · intro address _ item hitem
    exact (h address (address_lt_size hitem) item hitem).mono hlater
  · exact fun item hitem => (hcontainer item hitem).mono hlater

namespace RenamedTo

variable (h : left.RenamedTo image right)

include h

theorem add {container : Container}
    (hcontainer : ∀ item ∈ container.contents, item.Within (· < left.size)) :
    (left.add container).RenamedTo image (right.add (container.rename image)) where
  injective := h.injective
  get? address := by
    have hnext : image left.size = right.size := h.next 0
    simp only [get?_add, ← hnext, h.injective.eq_iff, h.get?]
    split <;> rfl
  next count := by
    rw [size_add, size_add, Nat.add_assoc, Nat.add_assoc]
    exact h.next (1 + count)
  closed := h.closed.add_taken hcontainer

theorem modifyItems (address other : Address) {change change' : Array Value → Array Value}
    (hchange : ∀ items : Array Value,
      change' (items.map (·.rename image)) = (change items).map (·.rename image)) :
    (right.modifyItems (image address) change').get? (image other) =
      ((left.modifyItems address change).get? other).map (·.rename image) := by
  simp only [get?_modifyItems, h.injective.eq_iff, h.get?]
  split
  · cases left.get? other with
    | none => rfl
    | some container =>
        cases container with
        | list items => simp [Container.mapItems, Container.rename, hchange]
        | record fields => rfl
  · rfl

theorem insertField (address other : Address) (key : String) (value : Value) :
    (right.modifyFields (image address) (·.insert key (value.rename image))).get? (image other) =
      ((left.modifyFields address (·.insert key value)).get? other).map (·.rename image) := by
  simp only [get?_modifyFields, h.injective.eq_iff, h.get?]
  split
  · cases left.get? other with
    | none => rfl
    | some container =>
        cases container with
        | list items => rfl
        | record fields =>
            simp [Container.mapFields, Container.rename, Table.insert_map]
  · rfl

theorem get?_apply (effect : Effect) (address : Address) :
    ((effect.rename image).apply right).get? (image address) =
      ((effect.apply left).get? address).map (·.rename image) := by
  cases effect with
  | nothing => exact h.get? address
  | setItem other position value =>
      exact h.modifyItems other address fun items => Effect.placeItem_rename items position value
  | setField other key value => exact h.insertField other address key value
  | appendItems other items =>
      refine h.modifyItems other address fun old => ?_
      apply Array.ext'
      simp
  | removeLast other => exact h.modifyItems other address fun items => by simp

theorem apply {effect : Effect} (heffect : effect.Within (· < left.size)) :
    (effect.apply left).RenamedTo image ((effect.rename image).apply right) where
  injective := h.injective
  get? := h.get?_apply effect
  next count := by
    rw [Effect.size_apply, Effect.size_apply]
    exact h.next count
  closed := by
    rw [Effect.size_apply]
    exact Effect.closed_apply heffect h.closed

end RenamedTo

end Store

end Bhasha
