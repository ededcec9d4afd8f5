import Bhasha.Proofs.Store.Keys
import Bhasha.Proofs.Store.Taken

/-!
# The kinds of containers

Addresses are given out in turn, and a container keeps the kind with which it has been made.  So the
kinds of all containers, in the order of their addresses, are a list to which one more is added with
each container, and which nothing else changes.  Whether a value stands for a container of its own
kind is a matter of this list, so a value that does will always do.
-/

namespace Bhasha

/-- The type of the values that stand for a container. -/
def Container.type : Container → ValueType
  | list _ => .list
  | record _ => .record

/-- The value that stands for a container at an address. -/
def Container.reference (address : Address) : Container → Value
  | list _ => .list address
  | record _ => .record address

/-- The kinds of all containers, in the order of their addresses. -/
def Store.kinds (store : Store) : List ValueType :=
  store.containers.toList.map Container.type

/-- Every container of the earlier store is still there, of the same kind. -/
def Store.KindsStay (before after : Store) : Prop :=
  before.kinds <+: after.kinds

theorem Container.Becomes.type_eq {before after : Container} (h : before.Becomes after) :
    after.type = before.type := by
  cases h <;> rfl

namespace Store

variable {store before middle after : Store} {address : Address}

@[simp] theorem length_kinds (store : Store) : store.kinds.length = store.size := by
  simp [kinds, size]

theorem getElem?_kinds (store : Store) (address : Address) :
    store.kinds[address]? = (store.get? address).map Container.type := by
  simp [kinds, get?]

@[simp] theorem kinds_add (store : Store) (container : Container) :
    (store.add container).kinds = store.kinds ++ [container.type] := by
  simp [kinds, add]

@[simp] theorem kinds_apply (effect : Effect) (store : Store) :
    (effect.apply store).kinds = store.kinds := by
  apply List.ext_getElem?
  intro address
  obtain ⟨change, hbecomes, hafter⟩ := effect.get?_apply_eq_map store address
  rw [getElem?_kinds, getElem?_kinds, hafter]
  cases store.get? address with
  | none => rfl
  | some container => exact congrArg some (hbecomes container).type_eq

theorem KindsStay.refl (store : Store) : store.KindsStay store :=
  List.prefix_rfl

theorem KindsStay.trans (hfirst : before.KindsStay middle) (hsecond : middle.KindsStay after) :
    before.KindsStay after :=
  List.IsPrefix.trans hfirst hsecond

theorem KindsStay.of_eq (h : before.kinds = after.kinds) : before.KindsStay after :=
  ⟨[], (List.append_nil _).trans h⟩

theorem kindsStay_apply (effect : Effect) (store : Store) : store.KindsStay (effect.apply store) :=
  .of_eq (kinds_apply effect store).symm

theorem kindsStay_add (store : Store) (container : Container) :
    store.KindsStay (store.add container) := by
  rw [KindsStay, kinds_add]
  exact List.prefix_append _ _

theorem KindsStay.size_le (h : before.KindsStay after) : before.size ≤ after.size := by
  rw [← length_kinds, ← length_kinds]
  exact List.IsPrefix.length_le h

theorem KindsStay.getElem?_kinds (h : before.KindsStay after) {kind : ValueType}
    (hkind : before.kinds[address]? = some kind) : after.kinds[address]? = some kind := by
  obtain ⟨added, hadded⟩ := h
  rw [← hadded, List.getElem?_append_left (List.getElem?_eq_some_iff.mp hkind).1, hkind]

/-- What is there in both stores is of the same kind. -/
theorem KindsStay.type_eq (h : before.KindsStay after) {former latter : Container}
    (hformer : before.get? address = some former) (hlatter : after.get? address = some latter) :
    former.type = latter.type := by
  have hkind : before.kinds[address]? = some former.type := by
    rw [Store.getElem?_kinds, hformer, Option.map_some]
  have hkind' : after.kinds[address]? = some latter.type := by
    rw [Store.getElem?_kinds, hlatter, Option.map_some]
  exact Option.some.inj ((h.getElem?_kinds hkind).symm.trans hkind')

end Store

namespace Value

variable {store before after : Store} {value : Value}

/-- A value stands for a container of its own kind exactly if that is the kind at its address. -/
theorem fitsIn_iff :
    value.FitsIn store ↔
      ∀ address, value.address? = some address → store.kinds[address]? = some value.type := by
  cases value with
  | list address | record address =>
      simp only [FitsIn, address?, Option.some.injEq, forall_eq', Store.getElem?_kinds, type]
      cases store.get? address with
      | none => simp
      | some container => cases container <;> simp [Container.type]
  | _ => simp [FitsIn, address?]

theorem FitsIn.mono (h : value.FitsIn before) (hkinds : before.KindsStay after) :
    value.FitsIn after := by
  rw [fitsIn_iff] at h ⊢
  exact fun address haddress => hkinds.getElem?_kinds (h address haddress)

theorem fitsIn_reference (store : Store) (container : Container) :
    (container.reference store.size).FitsIn (store.add container) := by
  rw [fitsIn_iff]
  intro address haddress
  have hnew : (store.add container).kinds[store.size]? = some container.type := by
    rw [Store.kinds_add, ← Store.length_kinds]
    exact List.getElem?_concat_length
  cases container <;> cases haddress <;> exact hnew

end Value

end Bhasha
