import Bhasha.Proofs.Store.Reachability

/-!
# Closed parts of the store

A part of the store is closed if the containers in it hold no address outside it.  What a value
reaches is then inside, as soon as the value itself is.  An effect that writes something from inside
to somewhere inside keeps the part closed, and changes nothing of the rest of the store.
-/

namespace Bhasha

/-- The value holds no address outside. -/
def Value.Within (inside : Address → Prop) (value : Value) : Prop :=
  ∀ address, value.address? = some address → inside address

def Store.Closed (inside : Address → Prop) (store : Store) : Prop :=
  ∀ address, inside address → ∀ item ∈ store.contents address, item.Within inside

/-- The effect writes nothing from outside, and nowhere outside. -/
def Effect.Within (inside : Address → Prop) : Effect → Prop
  | nothing => True
  | setItem address _ value | setField address _ value => inside address ∧ value.Within inside
  | appendItems address items => inside address ∧ ∀ item ∈ items, item.Within inside
  | removeLast address => inside address

variable {inside : Address → Prop} {store : Store}

theorem Value.within_of_plain {value : Value} (h : value.address? = none) :
    value.Within inside := by
  intro address haddress
  rw [h] at haddress
  cases haddress

theorem Table.mem_insertEntry {α : Type} {name : String} {thing : α}
    {entries : List (String × α)} {entry : String × α}
    (h : entry ∈ insertEntry name thing entries) : entry ∈ entries ∨ entry = (name, thing) := by
  induction entries with
  | nil => exact .inr (List.mem_singleton.mp h)
  | cons first rest ih =>
      unfold insertEntry at h
      by_cases hname : first.1 = name
      · simp only [hname, if_true, List.mem_cons] at h
        rcases h with hentry | hentry
        · exact .inr hentry
        · exact .inl (List.mem_cons_of_mem first hentry)
      · simp only [hname, if_false, List.mem_cons] at h
        rcases h with hentry | hentry
        · exact .inl (hentry ▸ List.mem_cons_self)
        · rcases ih hentry with hold | hnew
          · exact .inl (List.mem_cons_of_mem first hold)
          · exact .inr hnew

theorem Table.mem_of_getEntry? {α : Type} {name : String} {thing : α}
    {entries : List (String × α)} (h : getEntry? name entries = some thing) :
    (name, thing) ∈ entries := by
  induction entries with
  | nil => cases h
  | cons first rest ih =>
      unfold getEntry? at h
      by_cases hname : first.1 = name
      · simp only [hname, if_true, Option.some.injEq] at h
        rw [← h, ← hname]
        exact List.mem_cons_self
      · simp only [hname, if_false] at h
        exact List.mem_cons_of_mem first (ih h)

namespace Store

theorem contents_of_get? {address : Address} {container : Container}
    (h : store.get? address = some container) : store.contents address = container.contents := by
  unfold contents
  rw [h]

theorem mem_contents_of_mem_items {address : Address} {item : Value}
    (h : item ∈ store.items address) : item ∈ store.contents address := by
  unfold items at h
  unfold contents
  split at h
  next items hitems =>
    rw [hitems]
    exact Array.mem_toList_iff.mpr h
  next => simp at h

theorem mem_contents_of_mem_fields {address : Address} {entry : String × Value}
    (h : entry ∈ (store.fields address).entries) : entry.2 ∈ store.contents address := by
  unfold fields at h
  unfold contents
  split at h
  next fields hfields =>
    rw [hfields]
    exact List.mem_map_of_mem h
  next => cases h

/-- Whatever is reached from inside is inside. -/
theorem Closed.of_reaches (h : store.Closed inside) {target : Address} {value : Value}
    (hreaches : store.Reaches target value) (hvalue : value.Within inside) : inside target := by
  induction hreaches with
  | here haddress => exact hvalue target haddress
  | inside haddress hitem _ ih => exact ih (h _ (hvalue _ haddress) _ hitem)

theorem mem_contents_add {container : Container} {address : Address} {item : Value}
    (h : item ∈ (store.add container).contents address) :
    item ∈ store.contents address ∨ item ∈ container.contents := by
  unfold contents at h
  rw [get?_add] at h
  by_cases hnew : address = store.size
  · rw [if_pos hnew] at h
    exact .inr h
  · rw [if_neg hnew] at h
    exact .inl h

theorem Closed.add (h : store.Closed inside) {container : Container}
    (hcontainer : ∀ item ∈ container.contents, item.Within inside) :
    (store.add container).Closed inside := by
  intro address haddress item hitem
  rcases mem_contents_add hitem with hold | hnew
  · exact h address haddress item hold
  · exact hcontainer item hnew

/-- One container has been changed, and the other ones hold what they held. -/
theorem mem_contents_of_change {after : Store} {address : Address}
    {change : Container → Container} {fresh : Value → Prop}
    (hafter : ∀ other, after.get? other =
      if address = other then (store.get? other).map change else store.get? other)
    (hchange : ∀ container : Container, ∀ item ∈ (change container).contents,
      item ∈ container.contents ∨ fresh item)
    {other : Address} {item : Value} (hitem : item ∈ after.contents other) :
    item ∈ store.contents other ∨ fresh item := by
  unfold contents at hitem ⊢
  rw [hafter] at hitem
  by_cases hsame : address = other
  · rw [if_pos hsame] at hitem
    cases hcontainer : store.get? other with
    | none =>
        rw [hcontainer] at hitem
        cases hitem
    | some container =>
        rw [hcontainer] at hitem
        exact hchange container item hitem
  · rw [if_neg hsame] at hitem
    exact .inl hitem

theorem mem_contents_modifyItems {address other : Address} {change : Array Value → Array Value}
    {fresh : Value → Prop}
    (hchange : ∀ items : Array Value, ∀ item ∈ change items, item ∈ items ∨ fresh item)
    {item : Value} (hitem : item ∈ (store.modifyItems address change).contents other) :
    item ∈ store.contents other ∨ fresh item := by
  apply mem_contents_of_change (get?_modifyItems store address · change) _ hitem
  intro container item hitem
  cases container with
  | list items =>
      simp only [Container.mapItems, Container.contents, Array.mem_toList_iff] at hitem ⊢
      exact hchange items item hitem
  | record fields => exact .inl hitem

theorem mem_contents_insertField {address other : Address} {key : String} {value item : Value}
    (hitem : item ∈ (store.modifyFields address (·.insert key value)).contents other) :
    item ∈ store.contents other ∨ item = value := by
  apply mem_contents_of_change (get?_modifyFields store address · _) _ hitem
  intro container item hitem
  cases container with
  | list items => exact .inl hitem
  | record fields =>
      obtain ⟨entry, hentry, rfl⟩ := List.mem_map.mp hitem
      rcases Table.mem_insertEntry hentry with hentry | rfl
      · exact .inl (List.mem_map_of_mem hentry)
      · exact .inr rfl

end Store

namespace Effect

/-- What an effect puts into a container. -/
def written : Effect → List Value
  | nothing | removeLast _ => []
  | setItem _ _ value | setField _ _ value => [value]
  | appendItems _ items => items

theorem mem_placeItem {items : Array Value} {position : Nat} {value item : Value}
    (h : item ∈ placeItem items position value) :
    item ∈ items ∨ item.address? = none ∨ item ∈ [value] := by
  rcases Array.mem_or_eq_of_mem_setIfInBounds h with hold | rfl
  · rcases Array.mem_append.mp hold with hold | hfiller
    · exact .inl hold
    · rw [(Array.mem_replicate.mp hfiller).2]
      exact .inr (.inl rfl)
  · exact .inr (.inr List.mem_cons_self)

/-- Everything in a container has been there before, has been put into it, or holds no address. -/
theorem mem_contents_apply {effect : Effect} {address : Address} {item : Value}
    (h : item ∈ (effect.apply store).contents address) :
    item ∈ store.contents address ∨ item.address? = none ∨ item ∈ effect.written := by
  cases effect with
  | nothing => exact .inl h
  | setItem other position value =>
      exact Store.mem_contents_modifyItems (fun items item hitem => mem_placeItem hitem) h
  | setField other key value =>
      rcases Store.mem_contents_insertField h with hold | rfl
      · exact .inl hold
      · exact .inr (.inr List.mem_cons_self)
  | appendItems other items =>
      have hchange (old : Array Value) (item : Value) (hitem : item ∈ old ++ items) :
          item ∈ old ∨ item.address? = none ∨ item ∈ items := by
        rw [← Array.mem_toList_iff, Array.toList_appendList, List.mem_append,
          Array.mem_toList_iff] at hitem
        exact hitem.imp_right .inr
      exact Store.mem_contents_modifyItems hchange h
  | removeLast other =>
      have hchange (old : Array Value) (item : Value) (hitem : item ∈ old.pop) :
          item ∈ old ∨ item.address? = none ∨ item ∈ [] := by
        rw [← Array.mem_toList_iff, Array.toList_pop] at hitem
        exact .inl (Array.mem_toList_iff.mp ((List.dropLast_sublist old.toList).mem hitem))
      exact Store.mem_contents_modifyItems hchange h

theorem Within.written {effect : Effect} (h : effect.Within inside) :
    ∀ item ∈ effect.written, item.Within inside := by
  cases effect with
  | nothing | removeLast address => exact nofun
  | setItem address position value | setField address key value =>
      exact List.forall_mem_singleton.mpr h.2
  | appendItems address items => exact h.2

theorem closed_apply {effect : Effect} (heffect : effect.Within inside)
    (h : store.Closed inside) : (effect.apply store).Closed inside := by
  intro address haddress item hitem
  rcases mem_contents_apply hitem with hold | hplain | hwritten
  · exact h address haddress item hold
  · exact Value.within_of_plain hplain
  · exact heffect.written item hwritten

theorem get?_apply_outside {effect : Effect} (heffect : effect.Within inside) {address : Address}
    (haddress : ¬inside address) : (effect.apply store).get? address = store.get? address := by
  have hne {other : Address} (hother : inside other) : other ≠ address := by
    rintro rfl
    exact haddress hother
  cases effect with
  | nothing => rfl
  | setItem other position value =>
      rw [apply, Store.get?_modifyItems, if_neg (hne heffect.1)]
  | setField other key value =>
      rw [apply, Store.get?_modifyFields, if_neg (hne heffect.1)]
  | appendItems other items =>
      rw [apply, Store.get?_modifyItems, if_neg (hne heffect.1)]
  | removeLast other =>
      rw [apply, Store.get?_modifyItems, if_neg (hne heffect)]

end Effect

end Bhasha
