import Bhasha.Proofs.Table.Insertion
import Bhasha.Store

/-!
# The keys of records in the store

A container keeps its kind, and the only change to a record is that a value is inserted under some
key.  So each change of the store leaves the keys of every record as they are, up to one that may
come last.
-/

namespace Bhasha

/-- A container has become another one.  A list is still a list; a record is still a record with
all its keys in their places, and distinct keys have stayed distinct. -/
inductive Container.Becomes : Container → Container → Prop where
  | list {before after : Array Value} : Becomes (.list before) (.list after)
  | record {before after : Table Value} :
      before.names <+: after.names → (before.names.Nodup → after.names.Nodup) →
      Becomes (.record before) (.record after)

theorem Container.Becomes.refl (container : Container) : container.Becomes container := by
  cases container with
  | list items => exact .list
  | record fields => exact .record List.prefix_rfl id

namespace Store

/-- No record has a key twice. -/
def DistinctKeys (store : Store) : Prop :=
  ∀ address fields, store.get? address = some (.record fields) → fields.names.Nodup

/-- Every record is still there, and the keys that it had stand first among those that it has, in
the same order. -/
def KeysGrow (before after : Store) : Prop :=
  ∀ address fields, before.get? address = some (.record fields) →
    ∃ grown, after.get? address = some (.record grown) ∧ fields.names <+: grown.names

variable {store before middle after : Store}

theorem distinctKeys_empty : empty.DistinctKeys := by
  intro address fields hget
  simp [empty, get?] at hget

theorem KeysGrow.refl (store : Store) : store.KeysGrow store :=
  fun _ fields hget => ⟨fields, hget, List.prefix_rfl⟩

theorem KeysGrow.trans (hfirst : before.KeysGrow middle) (hsecond : middle.KeysGrow after) :
    before.KeysGrow after := by
  intro address fields hget
  obtain ⟨grown, hgrown, hnames⟩ := hfirst address fields hget
  obtain ⟨last, hlast, hnames'⟩ := hsecond address grown hgrown
  exact ⟨last, hlast, hnames.trans hnames'⟩

theorem keysGrow_add (store : Store) (container : Container) :
    store.KeysGrow (store.add container) := by
  intro address fields hget
  have hne : address ≠ store.size := Nat.ne_of_lt (Array.getElem?_eq_some_iff.mp hget).1
  refine ⟨fields, ?_, List.prefix_rfl⟩
  rw [get?_add, if_neg hne, hget]

theorem DistinctKeys.add (h : store.DistinctKeys) {container : Container}
    (hcontainer : ∀ fields, container = .record fields → fields.names.Nodup) :
    (store.add container).DistinctKeys := by
  intro address fields hget
  rw [get?_add] at hget
  by_cases hnew : address = store.size
  · rw [if_pos hnew] at hget
    exact hcontainer fields (Option.some.inj hget)
  · rw [if_neg hnew] at hget
    exact h address fields hget

end Store

namespace Effect

variable {store : Store}

theorem becomes_mapItems (change : Array Value → Array Value) (container : Container) :
    container.Becomes (container.mapItems change) := by
  cases container with
  | list items => exact .list
  | record fields => exact .refl _

theorem becomes_insert (key : String) (value : Value) (container : Container) :
    container.Becomes (container.mapFields (·.insert key value)) := by
  cases container with
  | list items => exact .refl _
  | record fields =>
      exact .record (fields.prefix_names_insert key value) (Table.nodup_names_insert · key value)

/-- Whatever an effect does, each container becomes another one. -/
theorem get?_apply_eq_map (effect : Effect) (store : Store) (address : Address) :
    ∃ change : Container → Container,
      (∀ container : Container, container.Becomes (change container)) ∧
        (effect.apply store).get? address = (store.get? address).map change := by
  have hsame : ∃ change : Container → Container,
      (∀ container : Container, container.Becomes (change container)) ∧
        store.get? address = (store.get? address).map change :=
    ⟨id, .refl, Option.map_id.symm ▸ rfl⟩
  have hitems (other : Address) (change : Array Value → Array Value) :
      ∃ change' : Container → Container,
        (∀ container : Container, container.Becomes (change' container)) ∧
          (store.modifyItems other change).get? address = (store.get? address).map change' := by
    rw [Store.get?_modifyItems]
    by_cases hother : other = address
    · rw [if_pos hother]
      exact ⟨_, becomes_mapItems change, rfl⟩
    · rwa [if_neg hother]
  cases effect with
  | nothing => exact hsame
  | setItem other position value => exact hitems other _
  | setField other key value =>
      rw [apply, Store.get?_modifyFields]
      by_cases hother : other = address
      · rw [if_pos hother]
        exact ⟨_, becomes_insert key value, rfl⟩
      · rwa [if_neg hother]
  | appendItems other items => exact hitems other _
  | removeLast other => exact hitems other _

theorem keysGrow_apply (effect : Effect) (store : Store) :
    store.KeysGrow (effect.apply store) := by
  intro address fields hget
  obtain ⟨change, hbecomes, hafter⟩ := effect.get?_apply_eq_map store address
  rw [hget, Option.map_some] at hafter
  have hfields := hbecomes (.record fields)
  generalize change (.record fields) = container at hafter hfields
  cases hfields with
  | record hnames _ => exact ⟨_, hafter, hnames⟩

theorem distinctKeys_apply (effect : Effect) (h : store.DistinctKeys) :
    (effect.apply store).DistinctKeys := by
  intro address fields hget
  obtain ⟨change, hbecomes, hafter⟩ := effect.get?_apply_eq_map store address
  rw [hafter] at hget
  obtain ⟨container, hcontainer, hchange⟩ := Option.map_eq_some_iff.mp hget
  have hfields := hbecomes container
  rw [hchange] at hfields
  cases hfields with
  | record _ hnodup => exact hnodup (h address _ hcontainer)

end Effect

end Bhasha
