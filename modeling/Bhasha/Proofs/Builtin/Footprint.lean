import Bhasha.Proofs.Run.IndexWrite

/-!
# What a call of a built-in function touches

A call of a built-in function ends with a change to one container, with no change at all, or with a
fault that leaves everything as it was.  The container is the first argument, and only the functions
that append, remove and write change it.  What has been appended comes off again in the opposite
order, whatever the values are, and the list is then what it was before.
-/

namespace Bhasha

/-- The container that an effect changes. -/
def Effect.address? : Effect → Option Address
  | nothing => none
  | setItem address _ _ | setField address _ _ | appendItems address _ | removeLast address =>
      some address

/-- The container that a built-in function changes if it does not fail. -/
def Builtin.changed? (builtin : Builtin) (arguments : List Value) : Option Address :=
  match builtin with
  | append | removeLast | writeAt => arguments.head?.bind Value.address?
  | _ => none

/-- What a built-in function does to the store: one container may have been changed, and the items
that are appended, or the one that is removed, are the whole change to a list. -/
structure Builtin.Touches (builtin : Builtin) (arguments : List Value) (before after : Store) :
    Prop where
  size : after.size = before.size
  kept : ∀ address, builtin.changed? arguments ≠ some address →
    after.get? address = before.get? address
  appended : ∀ address items given, builtin = .append → arguments = .list address :: given →
    before.get? address = some (.list items) → after.get? address = some (.list (items ++ given))
  removed : ∀ address items, builtin = .removeLast → arguments = [.list address] →
    before.get? address = some (.list items) → after.get? address = some (.list items.pop)

variable {store : Store} {address : Address} {items : Array Value}

theorem Effect.get?_apply_of_ne {effect : Effect} (h : effect.address? ≠ some address) :
    (effect.apply store).get? address = store.get? address := by
  cases effect with
  | nothing => rfl
  | setField other key value =>
      rw [apply, Store.get?_modifyFields, if_neg fun hsame => h (congrArg some hsame)]
  | _ => rw [apply, Store.get?_modifyItems, if_neg fun hsame => h (congrArg some hsame)]

theorem Store.get?_modifyItems_self (change : Array Value → Array Value)
    (h : store.get? address = some (.list items)) :
    (store.modifyItems address change).get? address = some (.list (change items)) := by
  rw [get?_modifyItems, if_pos rfl, h]
  rfl

theorem Value.address?_of_writeIndex {target index value : Value} {line : Nat} {effect : Effect}
    (h : target.writeIndex store index value line = .ok effect) :
    effect.address? = target.address? := by
  rcases writeIndex_eq_ok.mp h with
    ⟨address, position, rfl, -, -, rfl⟩ | ⟨address, rfl, -, rfl⟩
  · rfl
  · rfl

namespace Builtin

variable {builtin : Builtin} {arguments given : List Value} {line : Nat} {draw : Float}
  {result : Value} {effect : Effect}

theorem address?_of_reads {read : Except Fault Value} (h : reads read = .ok (result, effect)) :
    effect.address? = none := by
  cases read with
  | ok value =>
      cases h
      rfl
  | error raised => cases h

theorem address?_of_append {target : Value} (draw : Float) (store : Store)
    (h : append.apply (target :: given) line draw store = .ok (result, effect)) :
    effect.address? = append.changed? (target :: given) := by
  cases target with
  | list address =>
      cases h
      rfl
  | _ => cases h

theorem address?_of_removeLast {target : Value} (draw : Float)
    (h : removeLast.apply [target] line draw store = .ok (result, effect)) :
    effect.address? = removeLast.changed? [target] := by
  cases target with
  | list address =>
      cases h
      rfl
  | _ => cases h

theorem address?_of_writeAt {target index value : Value} (draw : Float)
    (h : writeAt.apply [target, index, value] line draw store = .ok (result, effect)) :
    effect.address? = writeAt.changed? [target, index, value] := by
  change (target.writeIndex store index value line).map _ = .ok (result, effect) at h
  cases hwrite : target.writeIndex store index value line with
  | ok written =>
      rw [hwrite] at h
      cases h
      exact Value.address?_of_writeIndex hwrite
  | error halt =>
      rw [hwrite] at h
      cases h

/-- What a built-in function changes, if it does not fail, is known before it is applied. -/
theorem address?_of_apply (h : builtin.apply arguments line draw store = .ok (result, effect)) :
    effect.address? = builtin.changed? arguments := by
  unfold apply at h
  split at h
  all_goals first
    | exact address?_of_reads h
    | exact address?_of_append draw store h
    | exact address?_of_removeLast draw h
    | exact address?_of_writeAt draw h
    | cases h; rfl
    | cases h

theorem touches_of_apply (h : builtin.apply arguments line draw store = .ok (result, effect)) :
    builtin.Touches arguments store (effect.apply store) := by
  refine ⟨effect.size_apply store, ?_, ?_, ?_⟩
  · intro address haddress
    rw [← address?_of_apply h] at haddress
    exact Effect.get?_apply_of_ne haddress
  · rintro address items given rfl rfl hitems
    cases h
    exact Store.get?_modifyItems_self (· ++ given) hitems
  · rintro address items rfl rfl hitems
    cases h
    exact Store.get?_modifyItems_self Array.pop hitems

end Builtin

open Action

variable {builtin : Builtin} {arguments given : List Value} {line : Nat} {context : Context}

theorem callBuiltin_of_refused (h : builtin.arity.accepts arguments.length = false) :
    callBuiltin builtin arguments line context =
      .fault (builtin.miscount arguments line) context := by
  unfold callBuiltin
  rw [h]
  rfl

theorem callBuiltin_of_accepted (h : builtin.arity.accepts arguments.length = true) :
    callBuiltin builtin arguments line context =
      match builtin.apply arguments line context.random.next context.store with
      | .ok (result, effect) => .ok result
          { context with
            store := effect.apply context.store
            random := if builtin = .random then context.random.advance else context.random }
      | .error (.fault raised) => .fault raised context
      | .error .fatal => .fatal := by
  unfold callBuiltin
  simp only [if_pos h, bind_apply, nextDraw, writing]
  cases builtin.apply arguments line context.random.next context.store with
  | ok result =>
      unfold Builtin.noteDraw
      by_cases hrandom : builtin = .random
      · simp only [if_pos hrandom]
        rfl
      · simp only [if_neg hrandom]
        rfl
  | error halt => cases halt <;> rfl

/-- The context with other items in the list at an address. -/
def Context.withItems (context : Context) (address : Address) (items : Array Value) : Context :=
  { context with store := context.store.modifyItems address fun _ => items }

theorem Store.eq_of_get? {left right : Store} (h : ∀ address, left.get? address = right.get? address) :
    left = right :=
  congrArg Store.mk (Array.ext_getElem? h)

/-- A change to a list is a matter of its old and its new items. -/
theorem Store.modifyItems_eq (change : Array Value → Array Value)
    (h : store.get? address = some (.list items)) :
    store.modifyItems address change = store.modifyItems address fun _ => change items := by
  apply eq_of_get?
  intro other
  rw [get?_modifyItems, get?_modifyItems]
  by_cases hother : address = other
  · subst hother
    rw [h]
    rfl
  · rw [if_neg hother, if_neg hother]

theorem Store.modifyItems_self (h : store.get? address = some (.list items)) :
    (store.modifyItems address fun _ => items) = store := by
  apply eq_of_get?
  intro other
  rw [get?_modifyItems]
  by_cases hother : address = other
  · subst hother
    rw [if_pos rfl, h]
    rfl
  · rw [if_neg hother]

theorem Store.modifyItems_twice (first second : Array Value → Array Value) :
    (store.modifyItems address first).modifyItems address second =
      store.modifyItems address fun items => second (first items) := by
  apply eq_of_get?
  intro other
  simp only [get?_modifyItems]
  by_cases hother : address = other
  · subst hother
    simp only [if_true, Option.map_map]
    congr 1
    funext container
    cases container <;> rfl
  · simp only [if_neg hother]

section

variable (h : context.store.get? address = some (.list items))

include h

theorem callBuiltin_append (given : List Value) (line : Nat) :
    callBuiltin .append (.list address :: given) line context =
      .ok (.list address) (context.withItems address (items ++ given)) := by
  rw [callBuiltin_of_accepted (by simp [Builtin.arity, Arity.accepts])]
  simp only [Builtin.apply, Effect.apply, Context.withItems]
  rw [Store.modifyItems_eq _ h]
  rfl

theorem callBuiltin_removeLast (line : Nat) :
    callBuiltin .removeLast [.list address] line context =
      .ok (items.back?.getD .null) (context.withItems address items.pop) := by
  have hitems : context.store.items address = items := by
    unfold Store.items
    rw [h]
  rw [callBuiltin_of_accepted rfl]
  simp only [Builtin.apply, Effect.apply, Context.withItems, hitems]
  rw [Store.modifyItems_eq _ h]
  rfl

end

/-- What has been appended is removed from the end, one call for each value. -/
theorem removals_after_append (given : List Value) (lines : List Nat)
    (hlines : lines.length = given.length)
    (h : context.store.get? address = some (.list (items ++ given.reverse))) :
    (lines.mapM fun line => callBuiltin .removeLast [.list address] line) context =
      .ok given (context.withItems address items) := by
  induction given generalizing lines context with
  | nil =>
      obtain rfl : lines = [] := List.length_eq_zero_iff.mp hlines
      rw [List.reverse_nil, Array.appendList_nil] at h
      rw [Context.withItems, Store.modifyItems_self h]
      rfl
  | cons value rest ih =>
      obtain ⟨line, more, rfl⟩ : ∃ line more, lines = line :: more :=
        List.exists_cons_of_length_eq_add_one hlines
      have hpush : items ++ (value :: rest).reverse = (items ++ rest.reverse).push value := by
        apply Array.ext'
        simp [Array.toList_appendList]
      rw [hpush] at h
      have hleft : (context.withItems address (items ++ rest.reverse)).store.get? address =
          some (.list (items ++ rest.reverse)) :=
        Store.get?_modifyItems_self (fun _ => items ++ rest.reverse) h
      have htwice : (context.withItems address (items ++ rest.reverse)).withItems address items =
          context.withItems address items := by
        simp only [Context.withItems, Store.modifyItems_twice]
      rw [List.mapM_cons, bind_apply, callBuiltin_removeLast h, Array.back?_push, Array.pop_push]
      simp only [bind_apply, ih more (Nat.succ.inj hlines) hleft, htwice]
      rfl

/-- A call of a built-in function that ends in a fault leaves everything as it was.  One that ends
well has touched nothing but the store, in which no container is new and only the first argument of
the functions that append, remove and write may have changed, and the source of random numbers, if
it has drawn one.  Values that are appended to a list come off it again from the last to the first,
and everything is as before, even if the list is appended to itself. -/
theorem footprint_of_call :
    (∀ (builtin : Builtin) (arguments : List Value) (line : Nat) (draw : Float) (store : Store)
      (result : Value) (effect : Effect),
      builtin.apply arguments line draw store = .ok (result, effect) →
        builtin.Touches arguments store (effect.apply store)) ∧
    (∀ (builtin : Builtin) (arguments : List Value) (line : Nat) (context : Context),
      callBuiltin builtin arguments line context ≠ .outOfFuel ∧
      (callBuiltin builtin arguments line context).Ends
        (fun _ after =>
          after = { context with
            store := after.store
            random := if builtin = .random then context.random.advance else context.random } ∧
          builtin.Touches arguments context.store after.store)
        (fun _ after => after = context)) ∧
    ∀ (address : Address) (items : Array Value) (given : List Value) (line : Nat)
      (lines : List Nat) (context : Context),
      context.store.get? address = some (.list items) → lines.length = given.length →
        (do
          let list ← callBuiltin .append (.list address :: given) line
          lines.mapM fun line => callBuiltin .removeLast [list] line : Action (List Value))
            context = .ok given.reverse context := by
  refine ⟨?_, ?_, ?_⟩
  · intro builtin arguments line draw store result effect h
    exact Builtin.touches_of_apply h
  · intro builtin arguments line context
    cases haccepts : builtin.arity.accepts arguments.length with
    | false =>
        rw [callBuiltin_of_refused haccepts]
        exact ⟨nofun, rfl⟩
    | true =>
        rw [callBuiltin_of_accepted haccepts]
        cases happly : builtin.apply arguments line context.random.next context.store with
        | ok result => exact ⟨nofun, rfl, Builtin.touches_of_apply happly⟩
        | error halt =>
            cases halt with
            | fault raised => exact ⟨nofun, rfl⟩
            | fatal => exact ⟨nofun, trivial⟩
  · intro address items given line lines context hitems hlines
    have hleft : (context.withItems address (items ++ given)).store.get? address =
        some (.list (items ++ given.reverse.reverse)) := by
      rw [List.reverse_reverse]
      exact Store.get?_modifyItems_self (fun _ => items ++ given) hitems
    have hback : (context.withItems address (items ++ given)).withItems address items = context := by
      simp only [Context.withItems, Store.modifyItems_twice, Store.modifyItems_self hitems]
    rw [bind_apply, callBuiltin_append hitems]
    simp only
    rw [removals_after_append given.reverse lines (by rw [hlines, List.length_reverse]) hleft, hback]

/-- A list is appended to itself behind null. -/
theorem footprint_of_call_on_itself :
    let context : Context := { store := ⟨#[.list #[.boolean true]]⟩, random := .ofSeed 0 }
    ∃ after, callBuiltin .append [.list 0, .null, .list 0] 1 context = .ok (.list 0) after ∧
      after.store.get? 0 = some (.list #[.boolean true, .null, .list 0]) ∧
      (do
        let list ← callBuiltin .append [.list 0, .null, .list 0] 1
        [2, 3].mapM fun line => callBuiltin .removeLast [list] line : Action (List Value))
          context = .ok [.list 0, .null] context := by
  intro context
  have hends := (footprint_of_call.2.1 .append [.list 0, .null, .list 0] 1 context).2
  have hback := footprint_of_call.2.2 0 #[.boolean true] [.null, .list 0] 1 [2, 3] context rfl rfl
  exact ⟨_, rfl, hends.2.appended 0 #[.boolean true] [.null, .list 0] rfl rfl rfl, hback⟩

end Bhasha
