import Bhasha.Proofs.Run.Outcome
import Bhasha.Proofs.Store.Closed
import Bhasha.Proofs.Store.Taken

/-!
# What is written at an index is read there

A list keeps the items that it had, up to the one at the position, and a gap is filled with null.  A
record is written under the text of the index.  The text does not change by that, because a record
is not written under an index that leads to it, and a text depends on no container but those that
the value leads to.  So what has been written is read back, whatever the index and the value are.
-/

namespace Bhasha

/-- A value has been placed among the items. -/
structure ItemPlaced (before after : Array Value) (position : Nat) (value : Value) : Prop where
  size : after.size = max before.size (position + 1)
  placed : after[position]? = some value
  kept : ∀ other, other < before.size → other ≠ position → after[other]? = before[other]?
  filled : ∀ other, before.size ≤ other → other < position → after[other]? = some .null

/-- A value has been placed under the key.  A key that was there has kept its place. -/
structure FieldPlaced (before after : Table Value) (key : String) (value : Value) : Prop where
  names : after.names = if key ∈ before.names then before.names else before.names ++ [key]
  placed : after.get? key = some value
  kept : ∀ other, other ≠ key → after.get? other = before.get? other

theorem itemPlaced_placeItem (items : Array Value) (position : Nat) (value : Value) :
    ItemPlaced items (Effect.placeItem items position value) position value := by
  have hsize : (items ++ Array.replicate (position + 1 - items.size) Value.null).size =
      max items.size (position + 1) := by
    rw [Array.size_append, Array.size_replicate]
    omega
  have hother {other : Nat} (hne : other ≠ position) :
      (Effect.placeItem items position value)[other]? =
        (items ++ Array.replicate (position + 1 - items.size) Value.null)[other]? :=
    Array.getElem?_setIfInBounds_ne (Ne.symm hne)
  constructor
  · rw [Effect.placeItem, Array.size_setIfInBounds, hsize]
  · rw [Effect.placeItem, Array.getElem?_setIfInBounds_self, if_pos (by omega)]
  · intro other hlt hne
    rw [hother hne, Array.getElem?_append_left hlt]
  · intro other hle hlt
    rw [hother (by omega), Array.getElem?_append_right hle, Array.getElem?_replicate,
      if_pos (by omega)]

theorem fieldPlaced_insert (fields : Table Value) (key : String) (value : Value) :
    FieldPlaced fields (fields.insert key value) key value := by
  constructor
  · exact fields.names_insert key value
  · rw [Table.get?_insert, if_pos rfl]
  · intro other hne
    rw [Table.get?_insert, if_neg hne]

variable {before after : Store} {value : Value}

namespace Store

theorem items_congr {address : Address} (h : after.get? address = before.get? address) :
    after.items address = before.items address := by
  rw [items, items, h]

theorem fields_congr {address : Address} (h : after.get? address = before.get? address) :
    after.fields address = before.fields address := by
  rw [fields, fields, h]

end Store

namespace Value

/-- The text of a value depends on the containers that it leads to, and on no others. -/
theorem innerText_congr
    (h : ∀ address, before.Reaches address value → after.get? address = before.get? address)
    (depth : Nat) (path : List Address) :
    innerText after depth path value = innerText before depth path value := by
  induction depth generalizing path value with
  | zero => cases value <;> simp only [innerText]
  | succ depth ih =>
      cases value with
      | list address =>
          have hitems := Store.items_congr (h address (.here rfl))
          have htexts :
              (before.items address).toList.map (innerText after depth (address :: path)) =
                (before.items address).toList.map (innerText before depth (address :: path)) := by
            apply List.map_congr_left
            intro item hitem
            have hcontents := Store.mem_contents_of_mem_items (Array.mem_toList_iff.mp hitem)
            exact ih (fun other hother => h other (.inside rfl hcontents hother)) _
          simp only [innerText, hitems, htexts]
      | record address =>
          have hfields := Store.fields_congr (h address (.here rfl))
          have htexts :
              ((before.fields address).entries.map fun entry =>
                entry.1.toList ++ ':' :: ' ' :: innerText after depth (address :: path) entry.2) =
              (before.fields address).entries.map fun entry =>
                entry.1.toList ++ ':' :: ' ' ::
                  innerText before depth (address :: path) entry.2 := by
            apply List.map_congr_left
            intro entry hentry
            have hcontents := Store.mem_contents_of_mem_fields hentry
            rw [ih fun other hother => h other (.inside rfl hcontents hother)]
          simp only [innerText, hfields, htexts]
      | _ => simp only [innerText]

theorem display_congr (hsize : after.size = before.size)
    (h : ∀ address, before.Reaches address value → after.get? address = before.get? address) :
    value.display after = value.display before := by
  cases value with
  | text value => rfl
  | _ => simp only [display, hsize, innerText_congr h]

end Value

/-- What is there after a write at an index, in the container that is the target. -/
inductive Store.IndexWritten (before after : Store) (index value : Value) : Value → Prop where
  | list {address : Address} {position : Nat} {items changed : Array Value} :
      before.get? address = some (.list items) → index.position? = some position →
      after.get? address = some (.list changed) → ItemPlaced items changed position value →
      IndexWritten before after index value (.list address)
  | record {address : Address} {fields changed : Table Value} :
      before.get? address = some (.record fields) → ¬before.Reaches address index →
      after.get? address = some (.record changed) →
      FieldPlaced fields changed (index.display before) value →
      IndexWritten before after index value (.record address)

/-- The index is one at which the target can be written: a position in a list, or anything that
does not lead to the record. -/
def Value.WritableAt (store : Store) (target index : Value) : Prop :=
  (∃ address position, target = .list address ∧ index.position? = some position ∧
    position ≤ greatestListIndex) ∨
  ∃ address, target = .record address ∧ ¬store.Reaches address index

namespace Value

variable {target index : Value} {effect : Effect} {line : Nat}

/-- A list is written at a position, and a record under the text of an index that does not lead to
it. -/
theorem writeIndex_eq_ok :
    target.writeIndex before index value line = .ok effect ↔
      (∃ address position, target = .list address ∧ index.position? = some position ∧
        position ≤ greatestListIndex ∧ effect = .setItem address position value) ∨
      ∃ address, target = .record address ∧ ¬before.Reaches address index ∧
        effect = .setField address (index.display before) value := by
  unfold writeIndex
  cases target with
  | list address =>
      cases index.position? with
      | none => simp
      | some position =>
          by_cases hposition : position ≤ greatestListIndex <;> simp [hposition, eq_comm]
  | record address =>
      by_cases hreads : index.displayReads before address = true
      · simp [hreads, (displayReads_iff before address index).mp hreads]
      · have hreaches : ¬before.Reaches address index :=
          fun h => hreads ((displayReads_iff before address index).mpr h)
        simp [hreads, hreaches, eq_comm]
  | _ => simp

/-- What a write at an index does to the store, and that the index reads what it has written. -/
theorem indexWritten_of_writeIndex (htarget : target.FitsIn before)
    (h : target.writeIndex before index value line = .ok effect) :
    before.IndexWritten (effect.apply before) index value target ∧
      (∀ other, target.address? ≠ some other →
        (effect.apply before).get? other = before.get? other) ∧
      ∀ line, target.readIndex (effect.apply before) index line = .ok value := by
  rcases writeIndex_eq_ok.mp h with
    ⟨address, position, rfl, hposition, -, rfl⟩ | ⟨address, rfl, hreaches, rfl⟩
  · obtain ⟨items, hitems⟩ := htarget
    have hchanged : ((Effect.setItem address position value).apply before).get? address =
        some (.list (Effect.placeItem items position value)) := by
      rw [Effect.apply, Store.get?_modifyItems, if_pos rfl, hitems]
      rfl
    have hplaced := itemPlaced_placeItem items position value
    refine ⟨.list hitems hposition hchanged hplaced, ?_, ?_⟩
    · intro other hother
      rw [Effect.apply, Store.get?_modifyItems, if_neg fun hsame => hother (congrArg some hsame)]
    · intro line
      simp only [readIndex, hposition, Store.items, hchanged, Option.bind_some, hplaced.placed,
        Option.getD_some]
  · obtain ⟨fields, hfields⟩ := htarget
    have hchanged :
        ((Effect.setField address (index.display before) value).apply before).get? address =
          some (.record (fields.insert (index.display before) value)) := by
      rw [Effect.apply, Store.get?_modifyFields, if_pos rfl, hfields]
      rfl
    have hothers : ∀ other, other ≠ address →
        ((Effect.setField address (index.display before) value).apply before).get? other =
          before.get? other := by
      intro other hother
      rw [Effect.apply, Store.get?_modifyFields, if_neg (Ne.symm hother)]
    have hplaced := fieldPlaced_insert fields (index.display before) value
    -- The index does not lead to the record, so its text is still the key.
    have hdisplay : index.display
        ((Effect.setField address (index.display before) value).apply before) =
          index.display before := by
      apply display_congr (Effect.size_apply _ _)
      intro other hother
      apply hothers
      rintro rfl
      exact hreaches hother
    refine ⟨.record hfields hreaches hchanged hplaced, ?_, ?_⟩
    · intro other hother
      apply hothers
      rintro rfl
      exact hother rfl
    · intro line
      simp only [readIndex, hdisplay, Store.fields, hchanged, hplaced.placed, Option.getD_some]

end Value

theorem Value.exists_writeIndex_iff (target index value : Value) (line : Nat) :
    (∃ effect, target.writeIndex before index value line = .ok effect) ↔
      target.WritableAt before index := by
  constructor
  · rintro ⟨effect, h⟩
    rcases writeIndex_eq_ok.mp h with
      ⟨address, position, htarget, hposition, hle, -⟩ | ⟨address, htarget, hreaches, -⟩
    · exact .inl ⟨address, position, htarget, hposition, hle⟩
    · exact .inr ⟨address, htarget, hreaches⟩
  · rintro (⟨address, position, htarget, hposition, hle⟩ | ⟨address, htarget, hreaches⟩)
    · exact ⟨_, writeIndex_eq_ok.mpr (.inl ⟨address, position, htarget, hposition, hle, rfl⟩)⟩
    · exact ⟨_, writeIndex_eq_ok.mpr (.inr ⟨address, htarget, hreaches, rfl⟩)⟩

open Action

/-- A write at an index, as a statement or a built-in function does it, that ends well leaves the
container with the value placed in it and all other containers as they were, and the index then
reads the value.  One that ends in a fault leaves everything as it was.  A write ends well exactly
if the target can be written at the index. -/
theorem readIndex_of_writeIndex {α : Type} {context : Context} {target : Value}
    (htarget : target.FitsIn context.store) (index value : Value) (line : Nat) (result : α) :
    (writing (fun store =>
        (target.writeIndex store index value line).map fun effect => (result, effect)) context).Ends
      (fun given after =>
        given = result ∧ after = { context with store := after.store } ∧
          after.store.size = context.store.size ∧
          context.store.IndexWritten after.store index value target ∧
          (∀ other, target.address? ≠ some other →
            after.store.get? other = context.store.get? other) ∧
          ∀ line, target.readIndex after.store index line = .ok value)
      (fun _ after => after = context) ∧
    ((∃ given after, writing (fun store =>
        (target.writeIndex store index value line).map fun effect => (result, effect)) context =
          .ok given after) ↔
      target.WritableAt context.store index) := by
  unfold writing
  constructor
  · cases hwrite : target.writeIndex context.store index value line with
    | ok effect =>
        simp only [hwrite, Except.map]
        exact ⟨rfl, rfl, effect.size_apply _, Value.indexWritten_of_writeIndex htarget hwrite⟩
    | error halt =>
        simp only [hwrite, Except.map]
        cases halt with
        | fault raised => rfl
        | fatal => trivial
  · rw [← Value.exists_writeIndex_iff target index value line]
    cases hwrite : target.writeIndex context.store index value line with
    | ok effect => simp [hwrite, Except.map]
    | error halt => cases halt <;> simp [hwrite, Except.map]

/-- A record is written under a list that holds itself, and it becomes a part of itself. -/
theorem readIndex_of_writeIndex_under_circle :
    let context : Context :=
      { store := ⟨#[.record ⟨[("k", .null)]⟩, .list #[.boolean true, .list 1]]⟩
        random := .ofSeed 0 }
    (Value.record 0).FitsIn context.store ∧
      (Value.list 1).display context.store = "[true, [...]]" ∧
      ∃ after, writing (fun store =>
          ((Value.record 0).writeIndex store (.list 1) (.record 0) 1).map fun effect =>
            (Flow.normal, effect)) context = .ok .normal after ∧
        context.store.IndexWritten after.store (.list 1) (.record 0) (.record 0) ∧
        (Value.record 0).readIndex after.store (.list 1) 2 = .ok (.record 0) := by
  intro context
  have htarget : (Value.record 0).FitsIn context.store := ⟨_, rfl⟩
  have hreads : (Value.list 1).displayReads context.store 0 = false := by decide +kernel
  have hwritable : (Value.record 0).WritableAt context.store (.list 1) := by
    refine .inr ⟨0, rfl, fun hreaches => ?_⟩
    rw [(Value.displayReads_iff context.store 0 (.list 1)).mpr hreaches] at hreads
    cases hreads
  obtain ⟨hends, hsucceeds⟩ :=
    readIndex_of_writeIndex htarget (.list 1) (.record 0) 1 Flow.normal
  obtain ⟨given, after, hok⟩ := hsucceeds.mpr hwritable
  rw [hok] at hends
  obtain ⟨rfl, -, -, hwritten, -, hread⟩ := hends
  exact ⟨htarget, by decide +kernel, after, hok, hwritten, hread 2⟩

end Bhasha
