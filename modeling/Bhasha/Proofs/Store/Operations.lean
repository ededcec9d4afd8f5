import Bhasha.Builtin.Apply
import Bhasha.Proofs.Store.Closed

/-!
# What operations give and write

The operators, the ways to read and write a part of a value, and the built-in functions see their
operands and what these lead to.  So a property of values that a container passes on to everything
in it, and that plain values have, passes from the operands of an operation to its result and to
what it writes.  That a value lies in a closed part of the store is such a property.
-/

namespace Bhasha

/-- Whatever a result is, if there is one, is as described. -/
def Gives {ε α : Type} (post : α → Prop) (result : Except ε α) : Prop :=
  ∀ value, result = .ok value → post value

section

variable {ε α β : Type} {post : α → Prop} {then_ : β → Prop}

theorem gives_ok {value : α} (h : post value) : Gives post (.ok value : Except ε α) := by
  intro other hother
  cases hother
  exact h

theorem gives_error {error : ε} : Gives post (.error error : Except ε α) :=
  nofun

theorem Gives.mono {result : Except ε α} {weaker : α → Prop} (h : Gives post result)
    (hweaker : ∀ value, post value → weaker value) : Gives weaker result :=
  fun value hvalue => hweaker value (h value hvalue)

theorem Gives.map {result : Except ε α} {function : α → β} (h : Gives post result)
    (hfunction : ∀ value, post value → then_ (function value)) :
    Gives then_ (result.map function) := by
  cases result with
  | ok value => exact gives_ok (hfunction value (h value rfl))
  | error error => exact gives_error

theorem gives_bind {result : Except ε α} {next : α → Except ε β}
    (h : ∀ value, Gives then_ (next value)) : Gives then_ (result >>= next) := by
  cases result with
  | ok value => exact h value
  | error error => exact gives_error

end

/-- Plain values have the property, and a container passes it on to everything in it. -/
structure Store.PassesOn (store : Store) (good : Value → Prop) : Prop where
  plain : ∀ {value : Value}, value.address? = none → good value
  item : ∀ {value item : Value} {address : Address}, good value → value.address? = some address →
    item ∈ store.contents address → good item

/-- The effect changes the container of a value with the property, and it writes only values that
have it. -/
def Effect.Carries (good : Value → Prop) : Effect → Prop
  | nothing => True
  | setItem address _ value | setField address _ value =>
      (∃ target, good target ∧ target.address? = some address) ∧ good value
  | appendItems address items =>
      (∃ target, good target ∧ target.address? = some address) ∧ ∀ item ∈ items, good item
  | removeLast address => ∃ target, good target ∧ target.address? = some address

variable {inside : Address → Prop} {good : Value → Prop} {store : Store}

theorem Store.Closed.passesOn (h : store.Closed inside) :
    store.PassesOn (Value.Within inside) where
  plain := Value.within_of_plain
  item hvalue haddress hitem := h _ (hvalue _ haddress) _ hitem

theorem Effect.Carries.within {effect : Effect} (h : effect.Carries (Value.Within inside)) :
    effect.Within inside := by
  have hinside {address : Address}
      (h : ∃ target : Value, target.Within inside ∧ target.address? = some address) :
      inside address := by
    obtain ⟨target, htarget, haddress⟩ := h
    exact htarget address haddress
  cases effect with
  | nothing => trivial
  | setItem address position value | setField address key value => exact ⟨hinside h.1, h.2⟩
  | appendItems address items => exact ⟨hinside h.1, h.2⟩
  | removeLast address => exact hinside h

theorem Effect.Carries.written {effect : Effect} (h : effect.Carries good) :
    ∀ item ∈ effect.written, good item := by
  cases effect with
  | nothing | removeLast address => exact nofun
  | setItem address position value | setField address key value =>
      exact List.forall_mem_singleton.mpr h.2
  | appendItems address items => exact h.2

section

variable (hgood : store.PassesOn good)

include hgood

namespace Value

theorem getD_null {found : Option Value} (h : ∀ value, found = some value → good value) :
    good (found.getD .null) := by
  cases found with
  | none => exact hgood.plain rfl
  | some value => exact h value rfl

variable {target written : Value} {line : Nat} (htarget : good target)

include htarget

theorem good_of_field {address : Address} (haddress : target.address? = some address)
    {name : String} {value : Value} (h : (store.fields address).get? name = some value) :
    good value :=
  hgood.item htarget haddress (Store.mem_contents_of_mem_fields (Table.mem_of_getEntry? h))

theorem good_of_item {address : Address} (haddress : target.address? = some address)
    {value : Value} (h : value ∈ store.items address) : good value :=
  hgood.item htarget haddress (Store.mem_contents_of_mem_items h)

theorem gives_readIndex (index : Value) : Gives good (target.readIndex store index line) := by
  cases target with
  | list address =>
      refine gives_ok (getD_null hgood ?_)
      intro value hvalue
      obtain ⟨position, -, hitem⟩ := Option.bind_eq_some_iff.mp hvalue
      exact good_of_item hgood htarget rfl (Array.mem_of_getElem? hitem)
  | record address =>
      apply gives_ok
      exact getD_null hgood fun value hvalue => good_of_field hgood htarget rfl hvalue
  | text value =>
      apply gives_ok
      cases index.position?.bind fun position => value.toList[position]? with
      | none => exact hgood.plain rfl
      | some c => exact hgood.plain rfl
  | _ => exact gives_error

theorem gives_readProperty (name : String) :
    Gives good (target.readProperty store name line) := by
  cases target with
  | record address =>
      apply gives_ok
      exact getD_null hgood fun value hvalue => good_of_field hgood htarget rfl hvalue
  | list address | text value =>
      apply gives_ok
      by_cases hname : name = "length"
      · rw [if_pos hname]
        exact hgood.plain rfl
      · rw [if_neg hname]
        exact hgood.plain rfl
  | _ => exact gives_error

omit hgood

variable (hwritten : good written)

include hwritten

theorem gives_writeIndex (index : Value) :
    Gives (Effect.Carries good) (target.writeIndex store index written line) := by
  cases target with
  | list address =>
      simp only [writeIndex]
      split
      · split
        · exact gives_ok ⟨⟨_, htarget, rfl⟩, hwritten⟩
        · exact gives_error
      · exact gives_error
  | record address =>
      simp only [writeIndex]
      split
      · exact gives_error
      · exact gives_ok ⟨⟨_, htarget, rfl⟩, hwritten⟩
  | _ => exact gives_error

theorem gives_writeProperty (name : String) :
    Gives (Effect.Carries good) (target.writeProperty name written line) := by
  cases target with
  | record address => exact gives_ok ⟨⟨_, htarget, rfl⟩, hwritten⟩
  | _ => exact gives_error

end Value

end

section

variable (hplain : ∀ {value : Value}, value.address? = none → good value)

include hplain

theorem Value.gives_number {ε α : Type} (result : Except ε α) (number : α → Float) :
    Gives good (result.map fun value => Value.number (number value)) := by
  cases result with
  | ok value => exact gives_ok (hplain rfl)
  | error error => exact gives_error

theorem UnaryOp.gives_apply (op : UnaryOp) (operand : Value) (line : Nat) :
    Gives good (op.apply operand line) := by
  cases op with
  | negate => exact Value.gives_number hplain (operand.asNumber line) (-·)
  | not => exact gives_ok (hplain rfl)

namespace BinaryOp

variable (op : BinaryOp) (left right : Value) (line : Nat)

theorem gives_applyArithmetic : Gives good (op.applyArithmetic store left right line) := by
  unfold applyArithmetic
  split
  · split
    next result hresult => exact Value.gives_number hplain result id
    next => exact gives_error
  · split
    · exact gives_ok (hplain rfl)
    · exact gives_error

theorem gives_applyComparison : Gives good (op.applyComparison left right line) := by
  unfold applyComparison
  split
  · exact gives_ok (hplain rfl)
  · exact gives_ok (hplain rfl)
  · split
    · exact gives_ok (hplain rfl)
    · exact gives_ok (hplain rfl)
    · exact gives_error

theorem gives_apply : Gives good (op.apply store left right line) := by
  unfold apply
  split
  · exact gives_applyComparison hplain op left right line
  · exact gives_applyArithmetic hplain op left right line

end BinaryOp

namespace Builtin

/-- The result has the property, and so has everything that is written. -/
def ResultCarries (good : Value → Prop) (result : Value × Effect) : Prop :=
  good result.1 ∧ result.2.Carries good

theorem gives_only {value : Value} (h : value.address? = none) :
    Gives (ResultCarries good) (only value) :=
  gives_ok ⟨hplain h, trivial⟩

omit hplain in
theorem gives_reads {result : Except Fault Value} (h : Gives good result) :
    Gives (ResultCarries good) (reads result) := by
  cases result with
  | ok value => exact gives_ok ⟨h value rfl, trivial⟩
  | error raised => exact gives_error

theorem gives_randomOf (arguments : List Value) (line : Nat) (draw : Float) :
    Gives good (randomOf arguments line draw) := by
  unfold randomOf
  split
  · split
    · exact Value.gives_number hplain _ (draw * ·)
    · exact gives_ok (hplain rfl)
  · exact gives_ok (hplain rfl)

theorem gives_powerOf (base exponent : Value) (line : Nat) :
    Gives (ResultCarries good) (reads do
      let base ← base.asNumber line
      let exponent ← exponent.asNumber line
      return .number (base.pow exponent)) := by
  apply gives_reads
  exact gives_bind fun base => gives_bind fun exponent => gives_ok (hplain rfl)

end Builtin

end

namespace Builtin

theorem gives_append {target : Value} {items : List Value} (store : Store) (line : Nat)
    (draw : Float) (h : ∀ argument ∈ target :: items, good argument) :
    Gives (ResultCarries good) (append.apply (target :: items) line draw store) := by
  obtain ⟨htarget, hitems⟩ := List.forall_mem_cons.mp h
  cases target with
  | list address => exact gives_ok ⟨htarget, ⟨_, htarget, rfl⟩, hitems⟩
  | _ => exact gives_error

theorem gives_writeAt {target index written : Value} (line : Nat) (draw : Float)
    (h : ∀ argument ∈ [target, index, written], good argument) :
    Gives (ResultCarries good) (writeAt.apply [target, index, written] line draw store) := by
  have htarget := h target (by simp)
  have heffect : Gives (Effect.Carries good) (target.writeIndex store index written line) :=
    Value.gives_writeIndex htarget (h written (by simp)) index
  exact heffect.map fun effect hcarries => ⟨htarget, hcarries⟩

variable (hgood : store.PassesOn good)

include hgood

theorem gives_removeLast {target : Value} (line : Nat) (draw : Float)
    (h : ∀ argument ∈ [target], good argument) :
    Gives (ResultCarries good) (removeLast.apply [target] line draw store) := by
  have htarget := List.forall_mem_singleton.mp h
  cases target with
  | list address =>
      refine gives_ok ⟨Value.getD_null hgood fun value hvalue => ?_, _, htarget, rfl⟩
      exact Value.good_of_item hgood htarget rfl (Array.mem_of_back? hvalue)
  | _ => exact gives_error

theorem gives_readAt {target index : Value} (line : Nat) (draw : Float)
    (h : ∀ argument ∈ [target, index], good argument) :
    Gives (ResultCarries good) (readAt.apply [target, index] line draw store) :=
  gives_reads (Value.gives_readIndex hgood (List.forall_mem_cons.mp h).1 index)

/-- A built-in function gives and writes only what its arguments are or lead to. -/
theorem gives_apply (builtin : Builtin) {arguments : List Value} (line : Nat) (draw : Float)
    (harguments : ∀ argument ∈ arguments, good argument) :
    Gives (ResultCarries good) (builtin.apply arguments line draw store) := by
  unfold apply
  split
  all_goals first
    | exact gives_only hgood.plain rfl
    | exact gives_error
    | exact gives_reads (Value.gives_number hgood.plain _ _)
    | exact gives_append store line draw harguments
    | exact gives_removeLast hgood line draw harguments
    | exact gives_readAt hgood line draw harguments
    | exact gives_writeAt line draw harguments
    | exact gives_powerOf hgood.plain _ _ line
    | exact gives_reads (gives_randomOf hgood.plain _ line draw)

end Builtin

end Bhasha
