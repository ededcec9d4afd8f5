import Bhasha.Proofs.Run.Frames
import Bhasha.Proofs.Run.InStep
import Bhasha.Proofs.Table.Insertion

/-!
# Visible bindings

A run looks names up through all scopes, rebinds them where they are found and declares them in
the innermost scope.  So it cannot tell two stacks of scopes apart in which the same bindings are
visible, however these are spread over the scopes.  While both runs go on, this alone is too
little: a scope that is left uncovers the bindings below it.  What stays true is that the scopes
entered since the runs began have the same bindings one by one, and that the same bindings are
visible below them.
-/

namespace Bhasha

variable {α : Type}

namespace Scopes

variable {name : String} {value : Value}

theorem assignIn_eq_none_iff {frames : List Frame} :
    assignIn name value frames = none ↔ getIn name frames = none := by
  induction frames with
  | nil => exact ⟨fun _ => rfl, fun _ => rfl⟩
  | cons frame rest ih =>
      unfold assignIn getIn Table.contains
      cases frame.get? name with
      | some bound => simp
      | none => simpa using ih

theorem getIn_assignIn {frames written : List Frame}
    (h : assignIn name value frames = some written) (other : String) :
    getIn other written = if other = name then some value else getIn other frames := by
  induction frames generalizing written with
  | nil => cases h
  | cons frame rest ih =>
      unfold assignIn at h
      by_cases hcontains : frame.contains name = true
      · rw [if_pos hcontains] at h
        cases h
        by_cases hother : other = name <;> simp [getIn, Table.get?_insert, hother]
      · rw [if_neg hcontains] at h
        obtain ⟨others, hothers, rfl⟩ := Option.map_eq_some_iff.mp h
        have hunbound : frame.get? name = none := by
          simpa [Table.contains] using hcontains
        simp only [getIn, ih hothers]
        by_cases hother : other = name
        · subst hother
          simp [hunbound]
        · simp [hother]

theorem assignIn_ne_nil {frames : List Frame} : assignIn name value frames ≠ some [] := by
  cases frames with
  | nil => simp [assignIn]
  | cons frame rest =>
      unfold assignIn
      by_cases hcontains : frame.contains name = true <;> simp [hcontains]

/-- The frames that were entered last bind the same, one by one, and the frames below them make
the same bindings visible. -/
inductive SeeAlike : Nat → List Frame → List Frame → Prop where
  | base {left right : List Frame} :
      left ≠ [] → right ≠ [] → (∀ name, getIn name right = getIn name left) →
      SeeAlike 0 left right
  | layer {depth : Nat} {frame frame' : Frame} {left right : List Frame} :
      (∀ name, frame'.get? name = frame.get? name) → SeeAlike depth left right →
      SeeAlike (depth + 1) (frame :: left) (frame' :: right)

variable {depth : Nat} {left right : List Frame}

theorem SeeAlike.ne_nil (h : SeeAlike depth left right) : left ≠ [] ∧ right ≠ [] := by
  cases h with
  | base hleft hright _ => exact ⟨hleft, hright⟩
  | layer _ _ => simp

theorem SeeAlike.getIn_eq (h : SeeAlike depth left right) (name : String) :
    getIn name right = getIn name left := by
  induction h with
  | base _ _ hvisible => exact hvisible name
  | layer hframe _ ih => simp only [getIn, hframe name, ih]

theorem SeeAlike.insert {frame frame' : Frame}
    (h : SeeAlike depth (frame :: left) (frame' :: right)) (name : String) (value : Value) :
    SeeAlike depth (frame.insert name value :: left) (frame'.insert name value :: right) := by
  cases h with
  | base _ _ hvisible =>
      refine .base (by simp) (by simp) fun other => ?_
      have hother := hvisible other
      unfold getIn at hother ⊢
      rw [Table.get?_insert, Table.get?_insert]
      by_cases hname : other = name
      · simp [hname]
      · simpa [hname] using hother
  | layer hframe houter =>
      refine .layer (fun other => ?_) houter
      rw [Table.get?_insert, Table.get?_insert, hframe other]

/-- A name is rebound in both stacks or in neither.  In the frames that correspond one by one it
is found in the same place, and below them it does not matter where. -/
theorem SeeAlike.rebind (h : SeeAlike depth left right) (name : String) (value : Value) :
    (assignIn name value left = none ∧ assignIn name value right = none) ∨
      ∃ left' right', assignIn name value left = some left' ∧
        assignIn name value right = some right' ∧ SeeAlike depth left' right' := by
  induction h with
  | @base left right _ _ hvisible =>
      have hnone : assignIn name value right = none ↔
          assignIn name value left = none := by
        rw [assignIn_eq_none_iff, assignIn_eq_none_iff, hvisible name]
      cases hleft : assignIn name value left with
      | none => exact .inl ⟨rfl, hnone.mpr hleft⟩
      | some left' =>
          cases hright : assignIn name value right with
          | none => simp [hleft, hright] at hnone
          | some right' =>
              refine .inr ⟨left', right', rfl, rfl, .base ?_ ?_ fun other => ?_⟩
              · exact fun hnil => assignIn_ne_nil (hnil ▸ hleft)
              · exact fun hnil => assignIn_ne_nil (hnil ▸ hright)
              · rw [getIn_assignIn hleft, getIn_assignIn hright, hvisible other]
  | @layer depth frame frame' left right hframe houter ih =>
      have hcontains : frame'.contains name = frame.contains name := by
        unfold Table.contains
        rw [hframe name]
      unfold assignIn
      rw [hcontains]
      by_cases hfound : frame.contains name = true
      · have hall : SeeAlike (depth + 1) (frame :: left) (frame' :: right) :=
          .layer hframe houter
        rw [if_pos hfound, if_pos hfound]
        exact .inr ⟨_, _, rfl, rfl, hall.insert name value⟩
      · rw [if_neg hfound, if_neg hfound]
        rcases ih with ⟨hleft, hright⟩ | ⟨left', right', hleft, hright, halike⟩
        · exact .inl ⟨by rw [hleft]; rfl, by rw [hright]; rfl⟩
        · exact .inr ⟨frame :: left', frame' :: right', by rw [hleft]; rfl, by rw [hright]; rfl,
            .layer hframe halike⟩

theorem keepsAlike_seeAlike :
    KeepsAlike fun depth left right => SeeAlike depth left.frames right.frames where
  visible := fun h name => h.getIn_eq name
  push := fun h => .layer (fun _ => rfl) h
  pop := by
    intro depth left right h
    generalize hleft : left.frames = leftFrames at h
    generalize hright : right.frames = rightFrames at h
    cases h with
    | layer _ houter =>
        -- There are frames below the layer on either side, so neither is the global scope.
        rw [frames_pop hleft houter.ne_nil.1, frames_pop hright houter.ne_nil.2]
        exact houter
  define := by
    intro depth left right h name value
    obtain ⟨frame, rest, hleft⟩ := List.exists_cons_of_ne_nil h.ne_nil.1
    obtain ⟨frame', rest', hright⟩ := List.exists_cons_of_ne_nil h.ne_nil.2
    rw [frames_define hleft, frames_define hright]
    rw [hleft, hright] at h
    exact h.insert name value
  assign := by
    intro depth left right h name value
    have hassign := h.rebind name value
    rw [← map_frames_assign?, ← map_frames_assign?] at hassign
    rcases hassign with ⟨hleft, hright⟩ | ⟨leftFrames, rightFrames, hleft, hright, halike⟩
    · exact .inl ⟨Option.map_eq_none_iff.mp hleft, Option.map_eq_none_iff.mp hright⟩
    · obtain ⟨left', hleft', rfl⟩ := Option.map_eq_some_iff.mp hleft
      obtain ⟨right', hright', rfl⟩ := Option.map_eq_some_iff.mp hright
      exact .inr ⟨left', right', hleft', hright', halike⟩

/-- All visible bindings in the global scope, and no other scope. -/
def collapse (scopes : Scopes) : Scopes where
  inner := []
  outermost := .ofList (scopes.frames.flatMap Table.entries).reverse

theorem getEntry?_flatMap (name : String) (frames : List Frame) :
    Table.getEntry? name (frames.flatMap Table.entries) = getIn name frames := by
  induction frames with
  | nil => rfl
  | cons frame rest ih =>
      rw [List.flatMap_cons, Table.getEntry?_append, ih, getIn, Table.get?]
      cases Table.getEntry? name frame.entries <;> rfl

theorem get?_outermost (frame : Frame) (name : String) :
    (⟨[], frame⟩ : Scopes).get? name = frame.get? name := by
  simp only [get?, frames, List.nil_append, getIn]
  cases frame.get? name <;> rfl

theorem get?_collapse (scopes : Scopes) (name : String) :
    scopes.collapse.get? name = scopes.get? name := by
  unfold collapse
  rw [get?_outermost, Table.get?_ofList, List.reverse_reverse, getEntry?_flatMap]
  rfl

end Scopes

/-- Two states that agree in everything but their scopes, in which the same bindings are
visible. -/
structure SameView (left right : Context) : Prop where
  store : right.store = left.store
  functions : right.functions = left.functions
  output : right.output = left.output
  callDepth : right.callDepth = left.callDepth
  config : right.config = left.config
  random : right.random = left.random
  visible : ∀ name, right.scopes.get? name = left.scopes.get? name

/-- Two ends of the same kind with the same value or fault, in states with the same view. -/
inductive SameEnd : Outcome α → Outcome α → Prop where
  | ok {value : α} {left right : Context} :
      SameView left right → SameEnd (.ok value left) (.ok value right)
  | fault {raised : Fault} {left right : Context} :
      SameView left right → SameEnd (.fault raised left) (.fault raised right)
  | fatal : SameEnd .fatal .fatal
  | outOfFuel : SameEnd .outOfFuel .outOfFuel

theorem Function.relabel_id (function : Function) : function.relabel id = function := by
  have hbody : Stmt.relabelBlock id function.body = function.body :=
    Stmt.relabelBlock_eq_self function.body fun _ _ => rfl
  unfold Function.relabel
  rw [hbody]
  rfl

theorem Table.map_relabel_id (functions : Table Function) :
    functions.map (·.relabel id) = functions :=
  map_eq_self Function.relabel_id functions

theorem SameView.sideBySide {left right : Context} (h : SameView left right) :
    SideBySide id (fun left right => Scopes.SeeAlike 0 left.frames right.frames) left right where
  store := h.store
  scopes := .base left.scopes.frames_ne_nil right.scopes.frames_ne_nil h.visible
  functions := by rw [h.functions, Table.map_relabel_id]
  output := h.output
  callDepth := h.callDepth
  config := h.config
  random := h.random

theorem SideBySide.sameView {depth : Nat} {left right : Context}
    (h : SideBySide id (fun left right => Scopes.SeeAlike depth left.frames right.frames)
      left right) : SameView left right where
  store := h.store
  functions := by rw [h.functions, Table.map_relabel_id]
  output := h.output
  callDepth := h.callDepth
  config := h.config
  random := h.random
  visible := h.scopes.getIn_eq

theorem Flow.relabel_id (flow : Flow) : flow.relabel id = flow := by
  cases flow <;> rfl

theorem sameView_collapse (context : Context) :
    SameView context { context with scopes := context.scopes.collapse } :=
  ⟨rfl, rfl, rfl, rfl, rfl, rfl, context.scopes.get?_collapse⟩

/-- In step without an exchange of lines, an action comes to the same end in states with the same
view. -/
theorem InStep.sameEnd {change : α → α} {action : Action α} {left right : Context}
    (h : InStep id (fun depth left right => Scopes.SeeAlike depth left.frames right.frames) change
      action action)
    (hchange : ∀ value, change value = value) (hview : SameView left right) :
    SameEnd (action left) (action right) := by
  have hmatches := h 0 left right hview.sideBySide
  generalize action left = leftEnd at hmatches ⊢
  generalize action right = rightEnd at hmatches ⊢
  cases hmatches with
  | ok hend =>
      rw [hchange]
      exact .ok hend.sameView
  | fault hend => exact .fault hend.sameView
  | fatal => exact .fatal
  | outOfFuel => exact .outOfFuel

/-- A run depends on its scopes only through the visible bindings: in states with the same view,
whatever the heights of their stacks, every expression, statement and program comes to the same
end, and the states that it ends in have the same view again.  This holds in particular of a
state and the one in which all visible bindings are put into a single scope. -/
theorem sameEnd_of_sameView :
    (∀ left right : Context, SameView left right → ∀ fuel,
      (∀ expr, SameEnd (eval fuel expr left) (eval fuel expr right)) ∧
      (∀ statement, SameEnd (exec fuel statement left) (exec fuel statement right)) ∧
      ∀ program : Program, SameEnd (program.evaluate fuel left) (program.evaluate fuel right)) ∧
    ∀ context : Context, ∃ visible : Frame,
      (∀ name, visible.get? name = context.scopes.get? name) ∧
      ∀ fuel,
        (∀ expr, SameEnd (eval fuel expr context)
          (eval fuel expr { context with scopes := ⟨[], visible⟩ })) ∧
        (∀ statement, SameEnd (exec fuel statement context)
          (exec fuel statement { context with scopes := ⟨[], visible⟩ })) ∧
        ∀ program : Program, SameEnd (program.evaluate fuel context)
          (program.evaluate fuel { context with scopes := ⟨[], visible⟩ }) := by
  have hview : ∀ left right : Context, SameView left right → ∀ fuel,
      (∀ expr, SameEnd (eval fuel expr left) (eval fuel expr right)) ∧
      (∀ statement, SameEnd (exec fuel statement left) (exec fuel statement right)) ∧
      ∀ program : Program, SameEnd (program.evaluate fuel left)
        (program.evaluate fuel right) := by
    intro left right h fuel
    obtain ⟨heval, hexec⟩ := @inStep_eval_exec id _ Scopes.keepsAlike_seeAlike fuel
    refine ⟨fun expr => ?_, fun statement => ?_, fun program => ?_⟩
    · have hsame : expr.relabel id = expr := expr.relabel_eq_self fun _ _ => rfl
      have hinStep := heval expr
      rw [hsame] at hinStep
      exact hinStep.sameEnd (fun _ => rfl) h
    · have hsame : statement.relabel id = statement := statement.relabel_eq_self fun _ _ => rfl
      have hinStep := hexec statement
      rw [hsame] at hinStep
      exact hinStep.sameEnd Flow.relabel_id h
    · have hsame : program.relabel id = program :=
        Stmt.relabelBlock_eq_self program fun _ _ => rfl
      have hinStep := @inStep_evaluate id _ Scopes.keepsAlike_seeAlike program fuel
      rw [hsame] at hinStep
      exact hinStep.sameEnd (fun _ => rfl) h
  refine ⟨hview, fun context => ⟨context.scopes.collapse.outermost, fun name => ?_, ?_⟩⟩
  · rw [← Scopes.get?_collapse, ← Scopes.get?_outermost]
    rfl
  · exact hview _ _ (sameView_collapse context)

/-- Two stacks of different heights, in which the name is bound at different places. -/
theorem sameEnd_of_rebinding :
    let tall : Scopes := ⟨[⟨[("a", .boolean true)]⟩], ⟨[("a", .boolean false), ("b", .null)]⟩⟩
    let flat : Scopes := ⟨[], ⟨[("b", .null), ("a", .boolean true)]⟩⟩
    let random : RandomSource := { sample := fun _ => 0 }
    let rebinding : Stmt := .assign "a" (.var "b" 1) 1
    SameView { scopes := tall, random := random } { scopes := flat, random := random } ∧
      SameEnd (exec 2 rebinding { scopes := tall, random := random })
        (exec 2 rebinding { scopes := flat, random := random }) := by
  intro tall flat random rebinding
  have hview : SameView { scopes := tall, random := random }
      { scopes := flat, random := random } := by
    refine ⟨rfl, rfl, rfl, rfl, rfl, rfl, fun name => ?_⟩
    by_cases ha : "a" = name
    · subst ha
      rfl
    by_cases hb : "b" = name
    · subst hb
      rfl
    · simp [tall, flat, Scopes.get?, Scopes.frames, Scopes.getIn, Table.get?, Table.getEntry?,
        ha, hb]
  exact ⟨hview, (sameEnd_of_sameView.1 _ _ hview 2).2.1 rebinding⟩

end Bhasha
