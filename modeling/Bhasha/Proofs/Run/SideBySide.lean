import Bhasha.Eval
import Bhasha.Proofs.Program.Lines
import Bhasha.Proofs.Run.OperationLines
import Bhasha.Proofs.Table.Image

/-!
# Two runs side by side

A program is run next to the same program with other lines, in states that differ in their
scopes.  What the scopes have to have in common is left open: a relation between them has to be
kept by entering and leaving a scope, and by binding and rebinding a name, and it has to make
the same bindings visible.  Then both runs take the same steps, and come to the same end up to
the lines.
-/

namespace Bhasha

variable {α β : Type}

/-- What a relation between scopes has to be kept by.  It may depend on the number of scopes that
have been entered and not left since the two runs began. -/
structure KeepsAlike (alike : Nat → Scopes → Scopes → Prop) : Prop where
  visible : ∀ {depth left right}, alike depth left right → ∀ name, right.get? name = left.get? name
  push : ∀ {depth left right}, alike depth left right → alike (depth + 1) left.push right.push
  pop : ∀ {depth left right}, alike (depth + 1) left right → alike depth left.pop right.pop
  define : ∀ {depth left right}, alike depth left right → ∀ name value,
    alike depth (left.define name value) (right.define name value)
  assign : ∀ {depth left right}, alike depth left right → ∀ name value,
    (left.assign? name value = none ∧ right.assign? name value = none) ∨
      ∃ left' right', left.assign? name value = some left' ∧
        right.assign? name value = some right' ∧ alike depth left' right'

/-- Two states that differ in nothing but the lines of their functions and in their scopes, which
are alike. -/
structure SideBySide (label : Nat → Nat) (alike : Scopes → Scopes → Prop) (left right : Context) :
    Prop where
  store : right.store = left.store
  scopes : alike left.scopes right.scopes
  functions : right.functions = left.functions.map (·.relabel label)
  output : right.output = left.output
  callDepth : right.callDepth = left.callDepth
  config : right.config = left.config
  random : right.random = left.random

namespace Outcome

/-- Two ends of the same kind, with the same value or fault up to the lines, in states that are
side by side. -/
inductive Matches (label : Nat → Nat) (alike : Scopes → Scopes → Prop) (change : α → α) :
    Outcome α → Outcome α → Prop where
  | ok {value : α} {left right : Context} :
      SideBySide label alike left right →
      Matches label alike change (.ok value left) (.ok (change value) right)
  | fault {raised : Fault} {left right : Context} :
      SideBySide label alike left right →
      Matches label alike change (.fault raised left) (.fault (raised.relabel label) right)
  | fatal : Matches label alike change .fatal .fatal
  | outOfFuel : Matches label alike change .outOfFuel .outOfFuel

theorem Matches.of_ok {label : Nat → Nat} {alike : Scopes → Scopes → Prop} {change : α → α}
    {value : α} {left : Context} {second : Outcome α}
    (h : Matches label alike change (.ok value left) second) :
    ∃ right, second = .ok (change value) right ∧ SideBySide label alike left right := by
  cases h with
  | ok hend => exact ⟨_, rfl, hend⟩

theorem Matches.of_fault {label : Nat → Nat} {alike : Scopes → Scopes → Prop} {change : α → α}
    {raised : Fault} {left : Context} {second : Outcome α}
    (h : Matches label alike change (.fault raised left) second) :
    ∃ right, second = .fault (raised.relabel label) right ∧ SideBySide label alike left right := by
  cases h with
  | fault hend => exact ⟨_, rfl, hend⟩

end Outcome

/-- The flow with its line exchanged for its image. -/
def Flow.relabel (label : Nat → Nat) : Flow → Flow
  | normal => normal
  | broke line => broke (label line)
  | continued line => continued (label line)
  | returned value line => returned value (label line)

/-- Begun side by side, two actions end side by side. -/
def InStep (label : Nat → Nat) (alike : Nat → Scopes → Scopes → Prop) (change : α → α)
    (first second : Action α) : Prop :=
  ∀ depth left right, SideBySide label (alike depth) left right →
    (first left).Matches label (alike depth) change (second right)

section

open Action Outcome

variable {label : Nat → Nat} {alike : Nat → Scopes → Scopes → Prop} {change : α → α}
  {change' : β → β}

theorem inStep_pure (value : α) :
    InStep label alike change (pure value : Action α) (pure (change value)) :=
  fun _ _ _ h => .ok h

theorem InStep.bind {first second : Action α} {next next' : α → Action β}
    (h : InStep label alike change first second)
    (hnext : ∀ value, InStep label alike change' (next value) (next' (change value))) :
    InStep label alike change' (first >>= next) (second >>= next') := by
  intro depth left right hstart
  have hfirst := h depth left right hstart
  rw [bind_apply, bind_apply]
  generalize first left = leftEnd at hfirst ⊢
  generalize second right = rightEnd at hfirst ⊢
  cases hfirst with
  | ok hmiddle => exact hnext _ depth _ _ hmiddle
  | fault hend => exact .fault hend
  | fatal => exact .fatal
  | outOfFuel => exact .outOfFuel

theorem inStep_modify {first second : Context → Context}
    (h : ∀ depth left right, SideBySide label (alike depth) left right →
      SideBySide label (alike depth) (first left) (second right)) :
    InStep label alike id (modify first) (modify second) :=
  fun depth left right hstart => .ok (h depth left right hstart)

theorem inStep_raise (cause : FaultCause) (line : Nat) :
    InStep label alike change (raise cause line : Action α) (raise cause (label line)) :=
  fun _ _ _ hstart => .fault hstart

theorem inStep_ofExcept {first second : Except Fault α} (h : Relabels label first second) :
    InStep label alike id (ofExcept first) (ofExcept second) := by
  intro depth left right hstart
  cases h
  cases first with
  | ok value => exact .ok hstart
  | error raised => exact .fault hstart

theorem inStep_reading {first second : Store → Except Fault α}
    (h : ∀ store, Relabels label (first store) (second store)) :
    InStep label alike id (reading first) (reading second) := by
  intro depth left right hstart
  unfold reading
  rw [hstart.store]
  exact inStep_ofExcept (h left.store) depth left right hstart

theorem SideBySide.withStore {alike : Scopes → Scopes → Prop} {left right : Context}
    (h : SideBySide label alike left right) (store : Store) :
    SideBySide label alike { left with store := store } { right with store := store } :=
  { h with store := rfl }

theorem inStep_writing {first second : Store → Except Halt (α × Effect)}
    (h : ∀ store, HaltRelabels label (first store) (second store))
    (hchange : ∀ store result, first store = .ok result → change result.1 = result.1) :
    InStep label alike change (writing first) (writing second) := by
  intro depth left right hstart
  have hwrite : second left.store = _ := h left.store
  unfold writing
  rw [hstart.store, hwrite]
  cases hfirst : first left.store with
  | ok result =>
      have hend : Matches label (alike depth) change
          (.ok result.1 { left with store := result.2.apply left.store })
          (.ok (change result.1) { right with store := result.2.apply left.store }) :=
        .ok (hstart.withStore _)
      rw [hchange _ _ hfirst] at hend
      exact hend
  | error halt =>
      cases halt with
      | fault raised => exact .fault hstart
      | fatal => exact .fatal

theorem inStep_newList (items : Array Value) :
    InStep label alike id (newList items) (newList items) := by
  intro depth left right hstart
  unfold newList
  rw [hstart.store]
  exact .ok (hstart.withStore _)

theorem inStep_newRecord (fields : Table Value) :
    InStep label alike id (newRecord fields) (newRecord fields) := by
  intro depth left right hstart
  unfold newRecord
  rw [hstart.store]
  exact .ok (hstart.withStore _)

theorem InStep.deeper {first second : Action α} (h : InStep label alike change first second) :
    InStep label alike change (deeper first) (deeper second) := by
  intro depth left right hstart
  have hinner : SideBySide label (alike depth) { left with callDepth := left.callDepth + 1 }
      { right with callDepth := right.callDepth + 1 } :=
    { hstart with callDepth := by rw [hstart.callDepth] }
  have hbody := h depth _ _ hinner
  unfold Action.deeper
  generalize first _ = leftEnd at hbody ⊢
  generalize second _ = rightEnd at hbody ⊢
  cases hbody with
  | ok hend => exact .ok { hend with callDepth := by rw [hend.callDepth] }
  | fault hend => exact .fault { hend with callDepth := by rw [hend.callDepth] }
  | fatal => exact .fatal
  | outOfFuel => exact .outOfFuel

theorem InStep.handling {first second : Action α} {handler handler' : Fault → Action α}
    (h : InStep label alike change first second)
    (hhandler : ∀ raised,
      InStep label alike change (handler raised) (handler' (raised.relabel label))) :
    InStep label alike change (handling first handler) (handling second handler') := by
  intro depth left right hstart
  have hbody := h depth left right hstart
  unfold Action.handling
  generalize first left = leftEnd at hbody ⊢
  generalize second right = rightEnd at hbody ⊢
  cases hbody with
  | ok hend => exact .ok hend
  | fault hend => exact hhandler _ depth _ _ hend
  | fatal => exact .fatal
  | outOfFuel => exact .outOfFuel

theorem inStep_print (value : Value) : InStep label alike id (print value) (print value) :=
  inStep_modify fun _ _ _ h => { h with output := by rw [h.output] }

theorem inStep_nextDraw : InStep label alike id nextDraw nextDraw := by
  intro depth left right hstart
  unfold nextDraw
  rw [hstart.random]
  exact .ok hstart

theorem inStep_findFunction (name : String) (line : Nat) :
    InStep label alike (·.relabel label) (findFunction name line)
      (findFunction name (label line)) := by
  intro depth left right hstart
  unfold findFunction
  rw [hstart.functions, Table.get?_map]
  cases left.functions.get? name with
  | some function => exact .ok hstart
  | none => exact .fault hstart

theorem inStep_addFunction (name : String) (function : Function) :
    InStep label alike id
      (modify fun context =>
        { context with functions := context.functions.insert name function })
      (modify fun context =>
        { context with functions := context.functions.insert name (function.relabel label) }) :=
  inStep_modify fun _ _ _ h => { h with functions := by rw [h.functions, Table.insert_map] }

theorem inStep_callBuiltin (builtin : Builtin) (arguments : List Value) (line : Nat) :
    InStep label alike id (callBuiltin builtin arguments line)
      (callBuiltin builtin arguments (label line)) := by
  unfold callBuiltin
  by_cases haccepts : builtin.arity.accepts arguments.length = true
  · rw [if_pos haccepts, if_pos haccepts]
    have hnote : InStep label alike id builtin.noteDraw builtin.noteDraw := by
      unfold Builtin.noteDraw
      by_cases hrandom : builtin = .random
      · rw [if_pos hrandom]
        exact inStep_modify fun _ _ _ h => { h with random := by rw [h.random] }
      · rw [if_neg hrandom]
        exact inStep_pure ()
    refine inStep_nextDraw.bind fun draw => ?_
    have hwriting : InStep label alike id (writing (builtin.apply arguments line draw))
        (writing (builtin.apply arguments (label line) draw)) :=
      inStep_writing (builtin.haltRelabels_apply arguments draw) fun _ _ _ => rfl
    exact hwriting.bind fun result => hnote.bind fun _ => inStep_pure result
  · rw [if_neg haccepts, if_neg haccepts]
    exact inStep_ofExcept rfl

variable (halike : KeepsAlike alike)

include halike

theorem InStep.withScope {first second : Action α} (h : InStep label alike change first second) :
    InStep label alike change (withScope first) (withScope second) := by
  intro depth left right hstart
  have hinner : SideBySide label (alike (depth + 1)) { left with scopes := left.scopes.push }
      { right with scopes := right.scopes.push } :=
    { hstart with scopes := halike.push hstart.scopes }
  have hbody := h (depth + 1) _ _ hinner
  unfold Action.withScope
  generalize first _ = leftEnd at hbody ⊢
  generalize second _ = rightEnd at hbody ⊢
  cases hbody with
  | ok hend => exact .ok { hend with scopes := halike.pop hend.scopes }
  | fault hend => exact .fault { hend with scopes := halike.pop hend.scopes }
  | fatal => exact .fatal
  | outOfFuel => exact .outOfFuel

theorem inStep_define (name : String) (value : Value) :
    InStep label alike id (define name value) (define name value) :=
  inStep_modify fun _ _ _ h => { h with scopes := halike.define h.scopes name value }

theorem inStep_lookup (name : String) (line : Nat) :
    InStep label alike id (lookup name line) (lookup name (label line)) := by
  intro depth left right hstart
  unfold lookup
  rw [halike.visible hstart.scopes name]
  cases left.scopes.get? name with
  | some value => exact .ok hstart
  | none => exact .fault hstart

theorem inStep_assign (name : String) (value : Value) (line : Nat) :
    InStep label alike id (assign name value line) (assign name value (label line)) := by
  intro depth left right hstart
  unfold assign
  rcases halike.assign hstart.scopes name value with
    ⟨hleft, hright⟩ | ⟨left', right', hleft, hright, hassigned⟩
  · rw [hleft, hright]
    exact .fault hstart
  · rw [hleft, hright]
    exact .ok { hstart with scopes := hassigned }

theorem inStep_defineAll (bindings : List (String × Value)) :
    InStep label alike id (defineAll bindings) (defineAll bindings) := by
  induction bindings with
  | nil => exact inStep_pure ()
  | cons binding rest ih => exact (inStep_define halike binding.1 binding.2).bind fun _ => ih

end

end Bhasha
