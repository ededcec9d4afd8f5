import Bhasha.Table
import Bhasha.Value

/-!
# The store

The store holds the contents of all lists and records that have been made.  A container keeps
its address and its kind for ever.  Operations describe what they do to the store by an effect,
which is one of a few changes to a single container.
-/

namespace Bhasha

/-- The contents of a list or of a record. -/
inductive Container where
  | list (items : Array Value)
  | record (fields : Table Value)

def Container.contents : Container → List Value
  | list items => items.toList
  | record fields => fields.entries.map Prod.snd

/-- Changes the items of a list, and leaves a record as it is. -/
def Container.mapItems (change : Array Value → Array Value) : Container → Container
  | list items => list (change items)
  | record fields => record fields

/-- Changes the fields of a record, and leaves a list as it is. -/
def Container.mapFields (change : Table Value → Table Value) : Container → Container
  | list items => list items
  | record fields => record (change fields)

/-- All containers that have been made, by address. -/
structure Store where
  containers : Array Container := #[]

namespace Store

def empty : Store := {}

def size (store : Store) : Nat :=
  store.containers.size

def get? (store : Store) (address : Address) : Option Container :=
  store.containers[address]?

/-- The items of the list at an address; where there is no list, none. -/
def items (store : Store) (address : Address) : Array Value :=
  match store.get? address with
  | some (.list items) => items
  | _ => #[]

/-- The fields of the record at an address; where there is no record, none. -/
def fields (store : Store) (address : Address) : Table Value :=
  match store.get? address with
  | some (.record fields) => fields
  | _ => .empty

def contents (store : Store) (address : Address) : List Value :=
  match store.get? address with
  | some container => container.contents
  | none => []

/-- Adds a container.  Its address is the number of containers before it. -/
def add (store : Store) (container : Container) : Store where
  containers := store.containers.push container

def modifyItems (store : Store) (address : Address) (change : Array Value → Array Value) :
    Store where
  containers := store.containers.modify address (·.mapItems change)

def modifyFields (store : Store) (address : Address) (change : Table Value → Table Value) :
    Store where
  containers := store.containers.modify address (·.mapFields change)

@[simp] theorem size_add (store : Store) (container : Container) :
    (store.add container).size = store.size + 1 := by
  simp [add, size]

theorem get?_add (store : Store) (container : Container) (address : Address) :
    (store.add container).get? address =
      if address = store.size then some container else store.get? address := by
  exact Array.getElem?_push

@[simp] theorem size_modifyItems (store : Store) (address : Address)
    (change : Array Value → Array Value) : (store.modifyItems address change).size = store.size := by
  simp [modifyItems, size]

theorem get?_modifyItems (store : Store) (address other : Address)
    (change : Array Value → Array Value) :
    (store.modifyItems address change).get? other =
      if address = other then (store.get? other).map (·.mapItems change)
      else store.get? other := by
  simp [modifyItems, get?, Array.getElem?_modify]

@[simp] theorem size_modifyFields (store : Store) (address : Address)
    (change : Table Value → Table Value) :
    (store.modifyFields address change).size = store.size := by
  simp [modifyFields, size]

theorem get?_modifyFields (store : Store) (address other : Address)
    (change : Table Value → Table Value) :
    (store.modifyFields address change).get? other =
      if address = other then (store.get? other).map (·.mapFields change)
      else store.get? other := by
  simp [modifyFields, get?, Array.getElem?_modify]

end Store

/-- What an operation does to the containers that are already there. -/
inductive Effect where
  | nothing
  | setItem (address : Address) (position : Nat) (value : Value)
  | setField (address : Address) (key : String) (value : Value)
  | appendItems (address : Address) (items : List Value)
  | removeLast (address : Address)

namespace Effect

/-- The items with one of them replaced, after filling up with null to its position. -/
def placeItem (items : Array Value) (position : Nat) (value : Value) : Array Value :=
  (items ++ Array.replicate (position + 1 - items.size) Value.null).setIfInBounds position value

def apply (effect : Effect) (store : Store) : Store :=
  match effect with
  | nothing => store
  | setItem address position value => store.modifyItems address (placeItem · position value)
  | setField address key value => store.modifyFields address (·.insert key value)
  | appendItems address items => store.modifyItems address (· ++ items)
  | removeLast address => store.modifyItems address Array.pop

@[simp] theorem size_apply (effect : Effect) (store : Store) :
    (effect.apply store).size = store.size := by
  cases effect <;> simp [apply]

end Effect

end Bhasha
