import Bhasha.Proofs.Run.Nested
import Bhasha.Proofs.Store.Keys

/-!
# The keys of records in a run

A run does nothing to the store but add containers and apply the effects of operations.  A property
of the store that these keep holds in all states of a run, whatever the scopes and functions are.
That the keys of records are distinct is such a property, and so is that they have only grown since
some earlier state.
-/

namespace Bhasha

/-- Whatever a run does to the store keeps the property.  The fields of a record literal have been
inserted in turn, so they have distinct keys. -/
structure Store.Lasting (kept : Store → Prop) : Prop where
  effect : ∀ {store : Store} (effect : Effect), kept store → kept (effect.apply store)
  list : ∀ {store : Store} (items : Array Value), kept store → kept (store.add (.list items))
  record : ∀ {store : Store} {fields : Table Value}, fields.names.Nodup → kept store →
    kept (store.add (.record fields))

open Action

/-- From stores with the property an action ends in stores with the property. -/
abbrev Action.KeepsStore {α : Type} (kept : Store → Prop) (action : Action α) : Prop :=
  Keeps (fun context => kept context.store) (fun _ => True) (fun _ => True) action

variable {kept : Store → Prop} {fuel fuel' bodies : Nat} {task next : Task} {program : Program}
  {before after start context : Context}

namespace Store.Lasting

variable (hlasting : Store.Lasting kept)

include hlasting

theorem steady : Steady (fun context => kept context.store) (fun _ => True) where
  effect effect hcontext := hlasting.effect effect hcontext
  list items hcontext := hlasting.list items hcontext
  record hfields hcontext := hlasting.record hfields hcontext
  output _ hcontext := hcontext
  random _ hcontext := hcontext
  faults _ := trivial

/-- Scopes and functions do not matter to a property of the store. -/
theorem nested : Nested fun _ context => kept context.store where
  steady _ := hlasting.steady
  functions _ h := h
  callDepth _ h := h
  declare _ _ h := h
  rebind _ h := h
  enter h := h
  leave h := h

end Store.Lasting

theorem kept_iff_store : Kept (fun _ context => kept context.store) context ↔ kept context.store :=
  exists_const Nat

section

variable (hlasting : Store.Lasting kept)

include hlasting

theorem keepsStore_action (fuel : Nat) (task : Task) :
    Action.KeepsStore kept (task.action fuel) :=
  hlasting.nested.keeps_action fuel task 0

/-- What holds of the store when a task begins holds when any task in it begins. -/
theorem Leads.keepsStore (h : Leads fuel task before bodies fuel' next after)
    (hbefore : kept before.store) : kept after.store :=
  kept_iff_store.mp (hlasting.nested.pervades.of_leads h (kept_iff_store.mpr hbefore))

/-- What holds of the store when a program begins holds in all states that its run comes to. -/
theorem Program.Visits.keepsStore (h : program.Visits fuel start bodies context)
    (hstart : kept start.store) : kept context.store :=
  kept_iff_store.mp (hlasting.nested.pervades.of_run h (kept_iff_store.mpr hstart))

end

theorem lasting_distinctKeys : Store.Lasting Store.DistinctKeys where
  effect effect h := effect.distinctKeys_apply h
  list _ h := h.add nofun
  record hfields h := h.add fun _ hsame => Container.record.inj hsame ▸ hfields

theorem lasting_keysGrow (before : Store) : Store.Lasting before.KeysGrow where
  effect effect h := h.trans (effect.keysGrow_apply _)
  list _ h := h.trans (Store.keysGrow_add _ _)
  record _ h := h.trans (Store.keysGrow_add _ _)

/-- In all states that the run of a program comes to, each record has distinct keys.  In whatever
state an expression or a statement begins, the keys that a record has there stand first among the
keys that it has when anything inside begins and when the whole ends, however it ends, and distinct
keys stay distinct.  A record that is made by insertions has its keys in the order in which they
were first inserted, a key stands for what was last inserted under it, and no other key stands for
anything. -/
theorem keys_of_run (program : Program) (fuel : Nat) (config : Config) (random : RandomSource) :
    (∀ bodies context,
      program.Visits fuel { config := config, random := random } bodies context →
      context.store.DistinctKeys) ∧
    (∀ (fuel : Nat) (task : Task) (before after : Context),
      ((task.action fuel before).LeavesIn after ∨
        ∃ bodies fuel' next, Leads fuel task before bodies fuel' next after) →
      before.store.KeysGrow after.store ∧
        (before.store.DistinctKeys → after.store.DistinctKeys)) ∧
    (∀ entries : List (String × Value),
      (Table.ofList entries).names = (entries.map Prod.fst).eraseDups) ∧
    (∀ (earlier later : List (String × Value)) (key : String) (value : Value),
      key ∉ later.map Prod.fst →
      (Table.ofList (earlier ++ (key, value) :: later)).get? key = some value) ∧
    ∀ (entries : List (String × Value)) (key : String),
      (Table.ofList entries).get? key = none ↔ key ∉ entries.map Prod.fst := by
  refine ⟨?_, ?_, Table.names_ofList, ?_, Table.get?_ofList_eq_none_iff⟩
  · intro bodies context hvisits
    exact hvisits.keepsStore lasting_distinctKeys Store.distinctKeys_empty
  · intro fuel task before after hafter
    have hkept {kept : Store → Prop} (hlasting : Store.Lasting kept) (hbefore : kept before.store) :
        kept after.store := by
      rcases hafter with hends | ⟨bodies, fuel', next, hleads⟩
      · exact (keepsStore_action hlasting fuel task).of_leavesIn hbefore hends
      · exact hleads.keepsStore hlasting hbefore
    exact ⟨hkept (lasting_keysGrow before.store) (.refl _), hkept lasting_distinctKeys⟩
  · intro earlier later key value hlater
    exact Table.get?_ofList_of_last hlater earlier value

end Bhasha
