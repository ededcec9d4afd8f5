import Bhasha.Proofs.Store.Reachability
import Bhasha.Value.Access

/-!
# Showing values while a container is taken

A record is taken while a field is written into it: nobody else may look into it.  Here the text
of a value is made with one container taken, and there is no text when that container has to be
opened.  Otherwise it is the text as always, and a write into a record under an index is nothing
but showing the index while the record is taken.
-/

namespace Bhasha

variable {α β : Type}

/-- A value stands for a container of its own kind, if it stands for one. -/
def Value.FitsIn (store : Store) : Value → Prop
  | list address => ∃ items, store.get? address = some (.list items)
  | record address => ∃ fields, store.get? address = some (.record fields)
  | _ => True

/-- Everything inside containers stands for containers of its own kind. -/
def Store.Fits (store : Store) : Prop :=
  ∀ address, ∀ item ∈ store.contents address, item.FitsIn store

namespace Value

/-- The text of a value inside the containers of a path, which are followed no deeper than
`depth`, while a container may be taken. -/
def textWhile? (store : Store) (taken : Option Address) (depth : Nat) (path : List Address)
    (value : Value) : Option (List Char) :=
  match value with
  | number value => some (Number.digits value)
  | text value => some (Text.quoted value.toList)
  | boolean value => some (booleanText value)
  | null => some nullText
  | list address =>
      if address ∈ path then some listEllipsis
      else if taken = some address then none
      else
        match depth with
        | 0 => some listEllipsis
        | depth + 1 => do
            let texts ← (store.items address).toList.mapM
              (textWhile? store taken depth (address :: path))
            return '[' :: commaSeparated texts ++ [']']
  | record address =>
      if address ∈ path then some recordEllipsis
      else if taken = some address then none
      else
        match depth with
        | 0 => some recordEllipsis
        | depth + 1 => do
            let texts ← (store.fields address).entries.mapM fun (key, value) =>
              (textWhile? store taken depth (address :: path) value).map fun text =>
                key.toList ++ ':' :: ' ' :: text
            return '{' :: commaSeparated texts ++ ['}']

/-- The text of a value while a container may be taken. -/
def displayWhile? (store : Store) (taken : Option Address) : Value → Option String
  | text value => some value
  | value => (textWhile? store taken store.size [] value).map String.ofList

end Value

/-- Whether showing a value inside the containers of a path opens the container that is taken. -/
def Value.opens (store : Store) (taken : Option Address) (depth : Nat) (path : List Address)
    (value : Value) : Bool :=
  taken.any fun target => readsWithin store target depth path value

theorem mapM_eq_of_stops
    {list : List α} {action : α → Option β} {stops : α → Bool} {result : α → β}
    (h : ∀ item ∈ list, action item = if stops item then none else some (result item)) :
    list.mapM action = if list.any stops then none else some (list.map result) := by
  induction list with
  | nil => rfl
  | cons item rest ih =>
      have hitem := h item List.mem_cons_self
      have hrest := ih fun other hother => h other (List.mem_cons_of_mem item hother)
      rw [List.mapM_cons, hitem, hrest]
      cases hstops : stops item <;> cases hany : rest.any stops <;> simp [hstops, hany]

namespace Value

variable {store : Store} {taken : Option Address} {path : List Address} {value : Value}
  {address : Address}

theorem opens_of_address (haddress : value.address? = some address) (depth : Nat) :
    value.opens store taken depth path =
      if address ∈ path then false
      else if taken = some address then true
      else
        match depth with
        | 0 => false
        | depth + 1 => (store.contents address).any (opens store taken depth (address :: path)) := by
  unfold opens
  cases taken with
  | none => cases depth <;> simp
  | some target =>
      rw [Option.any_some]
      conv => lhs; unfold readsWithin
      simp only [haddress, Option.some.injEq, eq_comm]
      rfl

theorem opens_of_no_address (haddress : value.address? = none) (depth : Nat) :
    value.opens store taken depth path = false := by
  unfold opens
  cases taken with
  | none => rfl
  | some target =>
      rw [Option.any_some]
      unfold readsWithin
      rw [haddress]

/-- There is no text exactly when the container that is taken would be opened, and otherwise it is
the text as always. -/
theorem textWhile?_eq
    (hstore : store.Fits) (hvalue : value.FitsIn store) (depth : Nat) :
    textWhile? store taken depth path value =
      if value.opens store taken depth path then none
      else some (innerText store depth path value) := by
  induction depth generalizing path value with
  | zero =>
      cases value with
      | list address | record address =>
          rw [opens_of_address rfl]
          unfold textWhile? innerText
          by_cases hpath : address ∈ path
          · simp [hpath]
          · by_cases htaken : taken = some address <;> simp [hpath, htaken]
      | _ =>
          rw [opens_of_no_address rfl]
          rfl
  | succ depth ih =>
      cases value with
      | list address =>
          obtain ⟨items, hitems⟩ := hvalue
          have hcontents : store.contents address = items.toList := by
            simp [Store.contents, hitems, Container.contents]
          have htexts : items.toList.mapM (textWhile? store taken depth (address :: path)) =
              if items.toList.any (opens store taken depth (address :: path)) then none
              else some (items.toList.map (innerText store depth (address :: path))) := by
            apply mapM_eq_of_stops
            intro item hitem
            exact ih (hstore address item (hcontents ▸ hitem))
          rw [opens_of_address rfl, hcontents]
          unfold textWhile? innerText
          by_cases hpath : address ∈ path
          · simp [hpath]
          · by_cases htaken : taken = some address
            · simp [hpath, htaken]
            · simp only [hpath, htaken, if_false, Store.items, hitems, htexts]
              cases items.toList.any (opens store taken depth (address :: path)) <;> rfl
      | record address =>
          obtain ⟨fields, hfields⟩ := hvalue
          have hcontents : store.contents address = fields.entries.map Prod.snd := by
            simp [Store.contents, hfields, Container.contents]
          have htexts : fields.entries.mapM (fun entry =>
                (textWhile? store taken depth (address :: path) entry.2).map fun text =>
                  entry.1.toList ++ ':' :: ' ' :: text) =
              if (fields.entries.map Prod.snd).any (opens store taken depth (address :: path)) then
                none
              else some (fields.entries.map fun entry =>
                entry.1.toList ++ ':' :: ' ' :: innerText store depth (address :: path) entry.2) := by
            rw [List.any_map]
            apply mapM_eq_of_stops
            intro entry hentry
            have hitem : entry.2 ∈ store.contents address :=
              hcontents ▸ List.mem_map_of_mem hentry
            rw [ih (hstore address entry.2 hitem)]
            rw [Function.comp_apply]
            cases opens store taken depth (address :: path) entry.2 <;> rfl
          rw [opens_of_address rfl, hcontents]
          unfold textWhile? innerText
          by_cases hpath : address ∈ path
          · simp [hpath]
          · by_cases htaken : taken = some address
            · simp [hpath, htaken]
            · simp only [hpath, htaken, if_false, Store.fields, hfields, htexts]
              cases (fields.entries.map Prod.snd).any (opens store taken depth (address :: path)) <;>
                rfl
      | _ =>
          rw [opens_of_no_address rfl]
          rfl

/-- Showing a value fails while a container is taken exactly when it would open it. -/
theorem displayWhile?_eq (hstore : store.Fits) (hvalue : value.FitsIn store) :
    value.displayWhile? store taken =
      if taken.any (value.displayReads store) then none else some (value.display store) := by
  have hopens : taken.any (value.displayReads store) = value.opens store taken store.size [] := by
    cases taken <;> rfl
  rw [hopens]
  cases value with
  | text value =>
      rw [opens_of_no_address rfl]
      rfl
  | _ =>
      simp only [displayWhile?, display]
      rw [textWhile?_eq hstore hvalue]
      split <;> rfl

/-- A write into a record under an index shows the index while the record is taken, and ends the
run if that fails. -/
theorem writeIndex_record
    {index written : Value} {line : Nat} (hstore : store.Fits) (hindex : index.FitsIn store) :
    (record address).writeIndex store index written line =
      match index.displayWhile? store (some address) with
      | some key => .ok (.setField address key written)
      | none => .error .fatal := by
  rw [displayWhile?_eq hstore hindex, Option.any_some]
  unfold writeIndex
  cases hreads : index.displayReads store address <;> simp [hreads]

end Value

end Bhasha
