import Bhasha.Eval

/-!
# What holds where an action ends

An action may end well or in a fault, and it leaves a state in both cases.  A condition on its
ends asks something of these two; the fatal end and the end of the fuel leave no state, and
nothing is asked of them.  The rules below give such conditions for actions that are put together
from smaller ones, in terms of conditions on the ends of the smaller ones.
-/

namespace Bhasha

variable {α β : Type}

namespace Outcome

/-- The end is a good one that satisfies the first condition, a fault that satisfies the second,
or leaves no state. -/
def Ends (outcome : Outcome α) (post : α → Context → Prop) (failed : Fault → Context → Prop) :
    Prop :=
  match outcome with
  | .ok value context => post value context
  | .fault raised context => failed raised context
  | .fatal => True
  | .outOfFuel => True

theorem Ends.mono
    {outcome : Outcome α} {post post' : α → Context → Prop} {failed failed' : Fault → Context → Prop}
    (h : outcome.Ends post failed) (hpost : ∀ value context, post value context → post' value context)
    (hfailed : ∀ raised context, failed raised context → failed' raised context) :
    outcome.Ends post' failed' := by
  cases outcome with
  | ok value context => exact hpost value context h
  | fault raised context => exact hfailed raised context h
  | fatal => trivial
  | outOfFuel => trivial

end Outcome

namespace Action

open Outcome

variable {context : Context} {post : β → Context → Prop} {failed : Fault → Context → Prop}

theorem ends_bind
    {first : Action α} {next : α → Action β}
    (h : (first context).Ends (fun value after => (next value after).Ends post failed) failed) :
    ((first >>= next) context).Ends post failed := by
  rw [bind_apply]
  cases hfirst : first context with
  | ok value after =>
      rw [hfirst] at h
      exact h
  | fault fault after =>
      rw [hfirst] at h
      exact h
  | fatal => trivial
  | outOfFuel => trivial

theorem ends_withScope
    {body : Action β}
    (h : (body { context with scopes := context.scopes.push }).Ends
      (fun value after => post value { after with scopes := after.scopes.pop })
      (fun fault after => failed fault { after with scopes := after.scopes.pop })) :
    (withScope body context).Ends post failed := by
  unfold withScope
  cases hbody : body { context with scopes := context.scopes.push } with
  | ok value after =>
      rw [hbody] at h
      exact h
  | fault fault after =>
      rw [hbody] at h
      exact h
  | fatal => trivial
  | outOfFuel => trivial

theorem ends_deeper
    {body : Action β}
    (h : (body { context with callDepth := context.callDepth + 1 }).Ends
      (fun value after => post value { after with callDepth := after.callDepth - 1 })
      (fun fault after => failed fault { after with callDepth := after.callDepth - 1 })) :
    (deeper body context).Ends post failed := by
  unfold deeper
  cases hbody : body { context with callDepth := context.callDepth + 1 } with
  | ok value after =>
      rw [hbody] at h
      exact h
  | fault fault after =>
      rw [hbody] at h
      exact h
  | fatal => trivial
  | outOfFuel => trivial

theorem ends_handling
    {body : Action β} {handler : Fault → Action β}
    (h : (body context).Ends post fun fault after => (handler fault after).Ends post failed) :
    (handling body handler context).Ends post failed := by
  unfold handling
  cases hbody : body context with
  | ok value after =>
      rw [hbody] at h
      exact h
  | fault fault after =>
      rw [hbody] at h
      exact h
  | fatal => trivial
  | outOfFuel => trivial

theorem ends_ofExcept
    {result : Except Fault β} (hpost : ∀ value, result = .ok value → post value context)
    (hfailed : ∀ fault, result = .error fault → failed fault context) :
    (ofExcept result context).Ends post failed := by
  unfold ofExcept
  cases result with
  | ok value => exact hpost value rfl
  | error fault => exact hfailed fault rfl

theorem ends_writing
    {write : Store → Except Halt (β × Effect)}
    (hpost : ∀ value effect, write context.store = .ok (value, effect) →
      post value { context with store := effect.apply context.store })
    (hfailed : ∀ fault, write context.store = .error (.fault fault) → failed fault context) :
    (writing write context).Ends post failed := by
  unfold writing
  cases hwrite : write context.store with
  | ok result => exact hpost result.1 result.2 hwrite
  | error halt =>
      cases halt with
      | fault fault => exact hfailed fault hwrite
      | fatal => trivial

end Action

end Bhasha
