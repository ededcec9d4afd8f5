import Bhasha.Proofs.Run.Turns

/-!
# Each literal makes a container of its own

A literal has its parts evaluated first, and then makes a container of their values, whose address
is the number of containers that are there by then.  No two evaluations of literals in a run give
the same container: if one goes on inside the other, the inner one has ended before the outer one
makes its container, and otherwise one has ended when the other begins.
-/

namespace Bhasha

/-- The type of the containers that a literal makes. -/
def Expr.makes? : Expr → Option ValueType
  | .list .. => some .list
  | .record .. => some .record
  | _ => none

/-- The parts of a literal are evaluated, to the contents of the container that is then made. -/
inductive Expr.Fills (fuel : Nat) (before : Context) : Expr → Container → Context → Prop where
  | list {elements : List Expr} {line : Nat} {values : List Value} {filled : Context} :
      evalAll (eval fuel) elements before = .ok values filled →
      Fills fuel before (.list elements line) (.list values.toArray) filled
  | record {entries : List (String × Expr)} {line : Nat} {fields : Table Value}
      {filled : Context} :
      evalEntries (eval fuel) .empty entries before = .ok fields filled →
      Fills fuel before (.record entries line) (.record fields) filled

/-- The value stands for a container of the kind.  The earlier store does not have it, and it is the
last one of the later store. -/
def Value.IsNew (value : Value) (kind : ValueType) (before after : Store) : Prop :=
  ∃ address container, value = container.reference address ∧ container.type = kind ∧
    before.size ≤ address ∧ after.get? address = some container ∧ after.size = address + 1

variable {fuel fuel' fuel'' bodies bodies' : Nat} {expr expr' : Expr} {kind kind' : ValueType}
  {container : Container} {value value' : Value} {task next : Task} {program : Program}
  {before begun begun' filled after after' start context : Context}

@[simp] theorem Container.address?_reference (address : Address) (container : Container) :
    (container.reference address).address? = some address := by
  cases container <;> rfl

theorem Value.IsNew.exists_address {earlier later : Store} (h : value.IsNew kind earlier later) :
    ∃ address, value.address? = some address ∧ earlier.size ≤ address ∧
      later.size = address + 1 := by
  obtain ⟨address, container, rfl, -, hearlier, -, hlater⟩ := h
  exact ⟨address, container.address?_reference address, hearlier, hlater⟩

namespace Expr.Fills

theorem makes? (h : expr.Fills fuel before container filled) :
    expr.makes? = some container.type := by
  cases h <;> rfl

/-- What a literal starts has ended before the container is made. -/
theorem passed (h : expr.Fills fuel before container filled)
    (hstarts : (Task.eval expr).Starts fuel before task begun) : task.Passed fuel begun filled := by
  rcases hstarts with hneeds | henters
  · cases hneeds with
    | operand _ hturn =>
        cases h with
        | list hvalues => exact (schedules_evalAll fuel _).ends hturn (.inl ⟨_, hvalues⟩)
        | record hfields => exact (schedules_evalEntries _ _).ends hturn (.inl ⟨_, hfields⟩)
    | right => cases h
  · cases henters
    cases h

theorem kindsStay (h : expr.Fills fuel before container filled) :
    before.store.KindsStay filled.store := by
  cases h with
  | list hvalues => exact (schedules_evalAll fuel _).grows (.inl ⟨_, hvalues⟩)
  | record hfields => exact (schedules_evalEntries _ _).grows (.inl ⟨_, hfields⟩)

theorem passed_of_leads (h : expr.Fills fuel before container filled)
    (hleads : Leads (fuel + 1) (.eval expr) before bodies fuel' next begun) :
    (fuel' = fuel + 1 ∧ next = .eval expr ∧ begun = before) ∨ next.Passed fuel' begun filled := by
  rcases hleads.first_step with hsame | ⟨_, first, middle, inner, hfuel, hstarts, hrest⟩
  · exact .inl hsame
  · cases hfuel
    exact .inr (hrest.passed (h.passed hstarts))

end Expr.Fills

/-- A literal has its parts evaluated, and gives the container that is made of them. -/
theorem eval_eq_ok_of_makes (hmakes : expr.makes? = some kind) :
    eval (fuel + 1) expr before = .ok value after ↔
      ∃ container filled, expr.Fills fuel before container filled ∧
        value = container.reference filled.store.size ∧
        after = { filled with store := filled.store.add container } := by
  constructor
  · intro h
    cases expr with
    | list elements line =>
        obtain ⟨values, filled, hvalues, hnew⟩ := Action.bind_eq_ok.mp h
        cases hnew
        exact ⟨_, filled, .list hvalues, rfl, rfl⟩
    | record entries line =>
        obtain ⟨fields, filled, hfields, hnew⟩ := Action.bind_eq_ok.mp h
        cases hnew
        exact ⟨_, filled, .record hfields, rfl, rfl⟩
    | _ => cases hmakes
  · rintro ⟨container, filled, hfills, rfl, rfl⟩
    cases hfills with
    | list hvalues => exact Action.bind_eq_ok.mpr ⟨_, filled, hvalues, rfl⟩
    | record hfields => exact Action.bind_eq_ok.mpr ⟨_, filled, hfields, rfl⟩

/-- The container that a literal gives is none of those that are there when its parts have been
evaluated. -/
theorem isNew_of_makes (hmakes : expr.makes? = some kind)
    (h : eval (fuel + 1) expr before = .ok value after) :
    value.IsNew kind before.store after.store := by
  obtain ⟨container, filled, hfills, rfl, rfl⟩ := (eval_eq_ok_of_makes hmakes).mp h
  cases hfills.makes?.symm.trans hmakes
  refine ⟨filled.store.size, container, rfl, rfl, hfills.kindsStay.size_le, ?_, ?_⟩
  · rw [Store.get?_add, if_pos rfl]
  · exact filled.store.size_add container

/-- A task that has ended is not the literal whose container is still to be made. -/
theorem size_le_of_passed (hpassed : (Task.eval expr).Passed fuel begun context)
    (h : eval fuel expr begun = .ok value after) : after.store.size ≤ context.store.size := by
  obtain ⟨ended, hended, hcontext⟩ := hpassed
  cases (leavesIn_action_eval.mp hended).unique (.inl ⟨value, h⟩)
  exact hcontext.size_le

/-- A literal that is evaluated inside another one gives another container. -/
theorem Leads.eq_of_literals
    (hleads : Leads fuel (.eval expr) begun bodies fuel' (.eval expr') begun')
    (hmakes : expr.makes? = some kind) (hmakes' : expr'.makes? = some kind')
    (h : eval fuel expr begun = .ok value after) (h' : eval fuel' expr' begun' = .ok value' after')
    (haddress : value.address? = value'.address?) :
    fuel' = fuel ∧ expr' = expr ∧ begun' = begun := by
  obtain _ | fuel := fuel
  · cases h
  obtain _ | less := fuel'
  · cases h'
  obtain ⟨container, filled, hfills, rfl, rfl⟩ := (eval_eq_ok_of_makes hmakes).mp h
  rcases hfills.passed_of_leads hleads with ⟨hfuel, hexpr, hbegun⟩ | hpassed
  · cases hexpr
    exact ⟨hfuel, rfl, hbegun⟩
  · have hsize := size_le_of_passed hpassed h'
    obtain ⟨address, haddress', -, hlast⟩ := (isNew_of_makes hmakes' h').exists_address
    rw [haddress', container.address?_reference] at haddress
    cases haddress
    omega

/-- A literal that is evaluated after another one gives another container. -/
theorem address?_ne_of_passed (hpassed : (Task.eval expr).Passed fuel begun begun')
    (hmakes : expr.makes? = some kind) (hmakes' : expr'.makes? = some kind')
    (h : eval fuel expr begun = .ok value after)
    (h' : eval fuel' expr' begun' = .ok value' after') : value.address? ≠ value'.address? := by
  obtain _ | fuel := fuel
  · cases h
  obtain _ | less := fuel'
  · cases h'
  have hsize := size_le_of_passed hpassed h
  obtain ⟨address, haddress, -, hlast⟩ := (isNew_of_makes hmakes h).exists_address
  obtain ⟨address', haddress', hfirst, -⟩ := (isNew_of_makes hmakes' h').exists_address
  rw [haddress, haddress']
  rintro ⟨⟩
  omega

/-- Two evaluations of literals in a run that give the same container are the same evaluation. -/
theorem Program.Executes.eq_of_literals
    (hexecutes : program.Executes fuel start bodies fuel' (.eval expr) begun)
    (hexecutes' : program.Executes fuel start bodies' fuel'' (.eval expr') begun')
    (hmakes : expr.makes? = some kind) (hmakes' : expr'.makes? = some kind')
    (h : eval fuel' expr begun = .ok value after)
    (h' : eval fuel'' expr' begun' = .ok value' after')
    (haddress : value.address? = value'.address?) :
    fuel'' = fuel' ∧ expr' = expr ∧ begun' = begun := by
  cases hexecutes.unmixed hexecutes' with
  | inside hleads => exact hleads.eq_of_literals hmakes hmakes' h h' haddress
  | around hleads =>
      obtain ⟨rfl, rfl, rfl⟩ := hleads.eq_of_literals hmakes' hmakes h' h haddress.symm
      exact ⟨rfl, rfl, rfl⟩
  | earlier hpassed => exact absurd haddress (address?_ne_of_passed hpassed hmakes hmakes' h h')
  | later hpassed => exact absurd haddress.symm (address?_ne_of_passed hpassed hmakes' hmakes h' h)

/-- Every state in which the container of a literal is there comes after the literal has been
evaluated. -/
theorem Program.Executes.kindsStay_of_literal
    (hexecutes : program.Executes fuel start bodies fuel' (.eval expr) begun)
    (hmakes : expr.makes? = some kind) (h : eval fuel' expr begun = .ok value after)
    (hvisits : program.Visits fuel start bodies' context) {address : Address}
    (haddress : value.address? = some address) (hthere : context.store.get? address ≠ none) :
    after.store.KindsStay context.store := by
  obtain _ | less := fuel'
  · cases h
  have hafter : program.Visits fuel start bodies after :=
    .ends hexecutes (.inl ⟨_, action_eval_eq_ok.mpr ⟨value, h⟩⟩)
  rcases hafter.comparable hvisits with hlater | hearlier
  · exact hlater
  · obtain ⟨new, hnew, -, hlast⟩ := (isNew_of_makes hmakes h).exists_address
    cases haddress.symm.trans hnew
    have hinside : address < context.store.size :=
      Nat.lt_of_not_le (mt Array.getElem?_eq_none hthere)
    -- The container is the last one, so there are no others after it.
    have hlength : context.store.kinds.length = after.store.kinds.length := by
      rw [Store.length_kinds, Store.length_kinds]
      apply Nat.le_antisymm hearlier.size_le
      rw [hlast]
      exact hinside
    exact .of_eq (List.IsPrefix.eq_of_length hearlier hlength).symm

end Bhasha
