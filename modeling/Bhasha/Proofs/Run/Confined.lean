import Bhasha.Proofs.Run.Frames
import Bhasha.Proofs.Run.Guarded

/-!
# Runs inside a closed part of the store

Suppose that all values bound in the scopes lie in a closed part of the store, and that the
addresses which are not taken yet belong to it.  An action sees nothing but what is bound, what it
makes and what these lead to.  So it keeps all this as it is, gives a value of the part, and changes
nothing outside.
-/

namespace Bhasha

variable {inside : Address → Prop} {old : Store}

def Table.Within (inside : Address → Prop) (table : Table Value) : Prop :=
  ∀ name value, table.get? name = some value → value.Within inside

theorem Table.Within.insert {table : Table Value} (h : table.Within inside) {value : Value}
    (hvalue : value.Within inside) (name : String) : (table.insert name value).Within inside := by
  intro other found hfound
  rw [Table.get?_insert] at hfound
  by_cases hname : other = name
  · rw [if_pos hname] at hfound
    cases hfound
    exact hvalue
  · rw [if_neg hname] at hfound
    exact h other found hfound

namespace Scopes

/-- All values that the scopes bind are inside. -/
def Within (inside : Address → Prop) (scopes : Scopes) : Prop :=
  ∀ frame ∈ scopes.frames, frame.Within inside

variable {scopes : Scopes}

theorem Within.push (h : scopes.Within inside) : scopes.push.Within inside :=
  forall_frames_push h nofun

theorem Within.pop (h : scopes.Within inside) : scopes.pop.Within inside :=
  forall_frames_pop h

theorem Within.define (h : scopes.Within inside) {value : Value} (hvalue : value.Within inside)
    (name : String) : (scopes.define name value).Within inside :=
  forall_frames_define (fun _ hframe => hframe.insert hvalue name) h

theorem Within.assign? (h : scopes.Within inside) {name : String} {value : Value}
    (hvalue : value.Within inside) {written : Scopes}
    (hassign : scopes.assign? name value = some written) : written.Within inside :=
  forall_frames_assign? (fun _ hframe => hframe.insert hvalue name) h hassign

theorem within_getIn {name : String} {value : Value} {frames : List Frame}
    (h : ∀ frame ∈ frames, frame.Within inside) (hvalue : getIn name frames = some value) :
    value.Within inside := by
  obtain ⟨frame, hframe, hfound⟩ := exists_frame_of_getIn hvalue
  exact h frame hframe name value hfound

end Scopes

/-- The scopes and the containers inside hold nothing from outside, nothing outside has changed
since an earlier store, and the addresses that are not taken yet are inside. -/
structure Confined (inside : Address → Prop) (old : Store) (context : Context) : Prop where
  bound : context.scopes.Within inside
  closed : context.store.Closed inside
  outside : ∀ address, ¬inside address → context.store.get? address = old.get? address
  free : ∀ address, context.store.size ≤ address → inside address
  size : old.size ≤ context.store.size

namespace Confined

variable {context : Context}

theorem withScopes (h : Confined inside old context) {scopes : Scopes}
    (hscopes : scopes.Within inside) : Confined inside old { context with scopes := scopes } :=
  { h with bound := hscopes }

theorem withEffect (h : Confined inside old context) {effect : Effect}
    (heffect : effect.Within inside) :
    Confined inside old { context with store := effect.apply context.store } where
  bound := h.bound
  closed := Effect.closed_apply heffect h.closed
  outside address haddress := by
    rw [Effect.get?_apply_outside heffect haddress]
    exact h.outside address haddress
  free address haddress := by
    rw [Effect.size_apply] at haddress
    exact h.free address haddress
  size := by
    rw [Effect.size_apply]
    exact h.size

theorem withContainer (h : Confined inside old context) {container : Container}
    (hcontainer : ∀ item ∈ container.contents, item.Within inside) :
    Confined inside old { context with store := context.store.add container } where
  bound := h.bound
  closed := h.closed.add hcontainer
  outside address haddress := by
    have hne : address ≠ context.store.size := by
      rintro rfl
      exact haddress (h.free _ (Nat.le_refl _))
    rw [Store.get?_add, if_neg hne]
    exact h.outside address haddress
  free address haddress := by
    rw [Store.size_add] at haddress
    exact h.free address (by omega)
  size := by
    rw [Store.size_add]
    exact Nat.le_succ_of_le h.size

theorem guarded (inside : Address → Prop) (old : Store) :
    Guarded (Confined inside old) fun _ value => value.Within inside where
  passesOn h := h.closed.passesOn
  found h hvalue := Scopes.within_getIn h.bound hvalue
  push h := h.withScopes h.bound.push
  pop h := h.withScopes h.bound.pop
  declare name h hvalue := h.withScopes (h.bound.define hvalue name)
  rebind h hvalue hassign := h.withScopes (h.bound.assign? hvalue hassign)
  print h _ := { h with }
  effect h heffect := h.withEffect heffect.within
  container := by
    intro context container h hcontents
    refine ⟨h.withContainer hcontents, ?_⟩
    have hfree := h.free _ (Nat.le_refl _)
    cases container <;> rintro _ ⟨⟩ <;> exact hfree
  changed _ h := h
  added _ h := h
  functions _ h := { h with }
  callDepth _ h := { h with }
  random _ h := { h with }

end Confined

/-- The value of a return holds nothing from outside. -/
def Flow.Within (inside : Address → Prop) (flow : Flow) : Prop :=
  ∀ value line, flow = .returned value line → value.Within inside

theorem flow_within_of_plain {flow : Flow} (h : ∀ value line, flow ≠ .returned value line) :
    flow.Within inside :=
  fun value line hflow => absurd hflow (h value line)

theorem Flow.Within.afterRound {flow last : Flow} (hflow : flow.Within inside)
    (hlast : flow.afterRound = some last) : last.Within inside := by
  rintro value line rfl
  cases flow <;> cases hlast
  exact hflow value line rfl

open Action

/-- Nothing from outside is seen or changed. -/
abbrev Action.Stays {α : Type} (inside : Address → Prop) (old : Store) (post : α → Prop)
    (action : Action α) : Prop :=
  action.Keeps (Confined inside old) (fun _ => True) post

theorem stays_eval_exec (fuel : Nat) :
    (∀ expr, Stays inside old (Value.Within inside) (eval fuel expr)) ∧
      ∀ statement, Stays inside old (Flow.Within inside) (exec fuel statement) := by
  obtain ⟨heval, hexec⟩ := (Confined.guarded inside old).guards_eval_exec fuel
  constructor
  · intro expr context hcontext
    exact (heval [] expr context hcontext (List.forall_mem_nil _)).mono
      (fun _ _ h => ⟨h.1, List.forall_mem_singleton.mp h.2⟩) (fun _ _ h => ⟨h.1, trivial⟩)
  · intro statement context hcontext
    refine (hexec [] statement context hcontext (List.forall_mem_nil _)).mono
      (fun flow _ h => ⟨h.1, ?_⟩) (fun _ _ h => ⟨h.1, trivial⟩)
    rintro value line rfl
    exact List.forall_mem_singleton.mp h.2

end Bhasha
