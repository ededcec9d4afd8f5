import Bhasha.Proofs.Builtin.Footprint
import Bhasha.Proofs.Run.Activation
import Bhasha.Proofs.Run.VisibleBindings

/-!
# The places of a state

A value stands under a name, at a position of a list or under a key of a record.  Reading a list or
a record from a container is reading a place, whose value is given as it is.  Binding a name and
writing into a container put a value at one place, and leave all others as they were.
-/

namespace Bhasha

/-- Where a value stands in a state. -/
inductive Place where
  | name (name : String)
  | item (address : Address) (position : Nat)
  | field (address : Address) (key : String)
deriving DecidableEq

/-- The address of the container that the place belongs to. -/
def Place.address? : Place → Option Address
  | name _ => none
  | item address _ | field address _ => some address

/-- What stands at a place. -/
def Context.at? (context : Context) : Place → Option Value
  | .name name => context.scopes.get? name
  | .item address position => (context.store.items address)[position]?
  | .field address key => (context.store.fields address).get? key

namespace Value

/-- The place of a list or a record that an index denotes. -/
def placeAt? (store : Store) (target index : Value) : Option Place :=
  match target with
  | list address => index.position?.map (.item address)
  | record address => some (.field address (index.display store))
  | _ => none

/-- The place of a record that a key denotes. -/
def placeOf? (target : Value) (key : String) : Option Place :=
  match target with
  | record address => some (.field address key)
  | _ => none

end Value

/-- The value stands at the place, and all other places are as before.  Where there was nothing,
there may be null now, since a gap in a list is filled. -/
structure Context.Puts (before : Context) (place : Place) (value : Value) (after : Context) :
    Prop where
  there : after.at? place = some value
  others : ∀ other, other ≠ place →
    after.at? other = before.at? other ∨ before.at? other = none ∧ after.at? other = some .null

/-- The values stand behind the items of the list in turn, and all other places are as before. -/
structure Context.Appends (before : Context) (address : Address) (given : List Value)
    (after : Context) : Prop where
  there : ∀ index,
    after.at? (.item address ((before.store.items address).size + index)) = given[index]?
  others : ∀ other, (∀ index, other ≠ .item address ((before.store.items address).size + index)) →
    after.at? other = before.at? other

variable {context : Context} {target index value : Value} {address : Address} {line : Nat}
  {effect : Effect} {place : Place}

namespace Value

theorem getD_null_eq_reference {found : Option Value} (h : value.address? = some address) :
    found.getD .null = value ↔ found = some value := by
  cases found with
  | some other => simp
  | none =>
      simp only [Option.getD_none, reduceCtorEq, iff_false]
      rintro rfl
      cases h

/-- A list or a record is read by an index exactly if it stands at the place of the index. -/
theorem readIndex_eq_reference (h : value.address? = some address) :
    target.readIndex context.store index line = .ok value ↔
      ∃ place, target.placeAt? context.store index = some place ∧
        context.at? place = some value := by
  cases target with
  | list other =>
      simp only [readIndex, placeAt?, Except.ok.injEq, getD_null_eq_reference h,
        Option.bind_eq_some_iff, Option.map_eq_some_iff]
      constructor
      · rintro ⟨position, hposition, hitem⟩
        exact ⟨_, ⟨position, hposition, rfl⟩, hitem⟩
      · rintro ⟨_, ⟨position, hposition, rfl⟩, hitem⟩
        exact ⟨position, hposition, hitem⟩
  | record other =>
      simp only [readIndex, placeAt?, Except.ok.injEq, getD_null_eq_reference h,
        Option.some.injEq, exists_eq_left']
      rfl
  | text characters =>
      simp only [readIndex, placeAt?, Except.ok.injEq, reduceCtorEq, false_and, exists_false,
        iff_false]
      rintro rfl
      cases hfound : index.position?.bind fun position => characters.toList[position]? <;>
        rw [hfound] at h <;> cases h
  | _ => simp [readIndex, placeAt?]

/-- A list or a record is read by a key exactly if it stands at the place of the key. -/
theorem readProperty_eq_reference {name : String} (h : value.address? = some address) :
    target.readProperty context.store name line = .ok value ↔
      ∃ place, target.placeOf? name = some place ∧ context.at? place = some value := by
  cases target with
  | record other =>
      simp only [readProperty, placeOf?, Except.ok.injEq, getD_null_eq_reference h,
        Option.some.injEq, exists_eq_left']
      rfl
  | list other | text characters =>
      simp only [readProperty, placeOf?, Except.ok.injEq, reduceCtorEq, false_and, exists_false,
        iff_false]
      rintro rfl
      split at h <;> cases h
  | _ => simp [readProperty, placeOf?]

end Value

namespace Context

/-- A place of a container that is as before is as before. -/
theorem at?_withStore {store : Store}
    (h : ∀ address, place.address? = some address →
      store.get? address = context.store.get? address) :
    Context.at? { context with store := store } place = context.at? place := by
  cases place with
  | name name => rfl
  | item address position => rw [at?, at?, Store.items_congr (h address rfl)]
  | field address key => rw [at?, at?, Store.fields_congr (h address rfl)]

section

variable {items : Array Value} (h : context.store.get? address = some (.list items))
  (change : Array Value → Array Value)

include h

theorem at?_modifyItems (position : Nat) :
    Context.at? { context with store := context.store.modifyItems address change }
      (.item address position) = (change items)[position]? := by
  rw [at?, Store.items, Store.get?_modifyItems_self change h]

theorem at?_modifyItems_of_ne (hplace : ∀ position, place ≠ .item address position) :
    Context.at? { context with store := context.store.modifyItems address change } place =
      context.at? place := by
  by_cases hsame : place.address? = some address
  · cases place with
    | name name => cases hsame
    | item other position =>
        cases hsame
        exact absurd rfl (hplace position)
    | field other key =>
        cases hsame
        rw [at?, at?, Store.fields, Store.fields, Store.get?_modifyItems_self change h, h]
  · refine at?_withStore fun found hfound => ?_
    have hne : address ≠ found := fun heq => hsame (hfound.trans (congrArg some heq.symm))
    rw [Store.get?_modifyItems, if_neg hne]

end

section

variable {fields : Table Value} (h : context.store.get? address = some (.record fields))
  (change : Table Value → Table Value)

include h

theorem at?_modifyFields (key : String) :
    Context.at? { context with store := context.store.modifyFields address change }
      (.field address key) = (change fields).get? key := by
  rw [at?, Store.fields, Store.get?_modifyFields, if_pos rfl, h]
  rfl

theorem at?_modifyFields_of_ne (hplace : ∀ key, place ≠ .field address key) :
    Context.at? { context with store := context.store.modifyFields address change } place =
      context.at? place := by
  by_cases hsame : place.address? = some address
  · cases place with
    | name name => cases hsame
    | field other key =>
        cases hsame
        exact absurd rfl (hplace key)
    | item other position =>
        cases hsame
        rw [at?, at?, Store.items, Store.items, Store.get?_modifyFields, if_pos rfl, h]
        rfl
  · refine at?_withStore fun found hfound => ?_
    have hne : address ≠ found := fun heq => hsame (hfound.trans (congrArg some heq.symm))
    rw [Store.get?_modifyFields, if_neg hne]

end

namespace Puts

theorem bound (context : Context) (name : String) (value : Value) :
    context.Puts (.name name) value (context.bound name value) where
  there := (context.scopes.get?_define name name value).trans (if_pos rfl)
  others other hother := by
    cases other with
    | name other =>
        have hne : other ≠ name := fun hsame => hother (congrArg Place.name hsame)
        exact .inl ((context.scopes.get?_define name other value).trans (if_neg hne))
    | item address position | field address key => exact .inl rfl

theorem rebound {name : String} {scopes : Scopes}
    (h : context.scopes.assign? name value = some scopes) :
    context.Puts (.name name) value { context with scopes := scopes } := by
  have hframes : Scopes.assignIn name value context.scopes.frames = some scopes.frames := by
    rw [← Scopes.map_frames_assign?, h]
    rfl
  have hget := Scopes.getIn_assignIn hframes
  constructor
  · exact (hget name).trans (if_pos rfl)
  · intro other hother
    cases other with
    | name other =>
        have hne : other ≠ name := fun hsame => hother (congrArg Place.name hsame)
        exact .inl ((hget other).trans (if_neg hne))
    | item address position | field address key => exact .inl rfl

theorem setItem {items : Array Value} (h : context.store.get? address = some (.list items))
    (position : Nat) (value : Value) :
    context.Puts (.item address position) value
      { context with store := (Effect.setItem address position value).apply context.store } := by
  have hplaced := itemPlaced_placeItem items position value
  have hafter := at?_modifyItems h (Effect.placeItem · position value)
  have hbefore (other : Nat) : context.at? (.item address other) = items[other]? := by
    rw [at?, Store.items, h]
  refine ⟨(hafter position).trans hplaced.placed, fun other hother => ?_⟩
  by_cases hitem : ∃ place, other = .item address place
  · obtain ⟨place, rfl⟩ := hitem
    have hne : place ≠ position := fun hsame => hother (congrArg (Place.item address) hsame)
    rw [hbefore, Effect.apply, hafter]
    rcases Nat.lt_or_ge place items.size with hlt | hle
    · exact .inl (hplaced.kept place hlt hne)
    · have hnone : items[place]? = none := Array.getElem?_eq_none hle
      rcases Nat.lt_or_ge place position with hgap | hbehind
      · exact .inr ⟨hnone, hplaced.filled place hle hgap⟩
      · refine .inl (hnone ▸ Array.getElem?_eq_none ?_)
        rw [hplaced.size]
        omega
  · exact .inl (at?_modifyItems_of_ne h _ fun place hplace => hitem ⟨place, hplace⟩)

theorem setField {fields : Table Value} (h : context.store.get? address = some (.record fields))
    (key : String) (value : Value) :
    context.Puts (.field address key) value
      { context with store := (Effect.setField address key value).apply context.store } := by
  have hplaced := fieldPlaced_insert fields key value
  have hafter := at?_modifyFields h (·.insert key value)
  have hbefore (other : String) : context.at? (.field address other) = fields.get? other := by
    rw [at?, Store.fields, h]
  refine ⟨(hafter key).trans hplaced.placed, fun other hother => .inl ?_⟩
  by_cases hfield : ∃ place, other = .field address place
  · obtain ⟨place, rfl⟩ := hfield
    have hne : place ≠ key := fun hsame => hother (congrArg (Place.field address) hsame)
    rw [hbefore, Effect.apply, hafter]
    exact hplaced.kept place hne
  · exact at?_modifyFields_of_ne h _ fun place hplace => hfield ⟨place, hplace⟩

/-- A write at an index puts the value at the place of the index. -/
theorem of_writeIndex (htarget : target.FitsIn context.store)
    (h : target.writeIndex context.store index value line = .ok effect) :
    ∃ place, target.placeAt? context.store index = some place ∧
      context.Puts place value { context with store := effect.apply context.store } := by
  rcases Value.writeIndex_eq_ok.mp h with
    ⟨address, position, rfl, hposition, -, rfl⟩ | ⟨address, rfl, -, rfl⟩
  · obtain ⟨items, hitems⟩ := htarget
    exact ⟨_, congrArg (Option.map _) hposition, setItem hitems position value⟩
  · obtain ⟨fields, hfields⟩ := htarget
    exact ⟨_, rfl, setField hfields _ value⟩

theorem of_writeProperty {key : String} (htarget : target.FitsIn context.store)
    (h : target.writeProperty key value line = .ok effect) :
    ∃ place, target.placeOf? key = some place ∧
      context.Puts place value { context with store := effect.apply context.store } := by
  cases target with
  | record address =>
      cases h
      obtain ⟨fields, hfields⟩ := htarget
      exact ⟨_, rfl, setField hfields key value⟩
  | _ => cases h

end Puts

theorem appends (h : (Value.list address).FitsIn context.store) (given : List Value) :
    context.Appends address given
      { context with store := (Effect.appendItems address given).apply context.store } := by
  obtain ⟨items, h⟩ := h
  have hafter := at?_modifyItems h (· ++ given)
  have hbefore (other : Nat) : context.at? (.item address other) = items[other]? := by
    rw [at?, Store.items, h]
  have hsize : (context.store.items address).size = items.size := by rw [Store.items, h]
  constructor
  · intro index
    rw [hsize, Effect.apply, hafter, ← Array.getElem?_toList, Array.toList_appendList,
      ← Array.length_toList, List.getElem?_append_right (Nat.le_add_right _ _),
      Nat.add_sub_cancel_left]
  · intro other hother
    by_cases hitem : ∃ position, other = .item address position
    · obtain ⟨position, rfl⟩ := hitem
      have hlt : position < items.size := by
        by_contra hbehind
        obtain ⟨index, rfl⟩ := Nat.exists_eq_add_of_le (Nat.le_of_not_lt hbehind)
        exact hother index (congrArg (Place.item address) (congrArg (· + index) hsize.symm))
      rw [hbefore, Effect.apply, hafter, ← Array.getElem?_toList, Array.toList_appendList,
        List.getElem?_append_left hlt, Array.getElem?_toList]
    · exact at?_modifyItems_of_ne h _ fun position hposition => hitem ⟨position, hposition⟩

end Context

end Bhasha
