import Bhasha.Proofs.Run.Nested
import Bhasha.Proofs.Run.Rounds
import Bhasha.Proofs.Run.VisibleBindings

/-!
# A bound name shields the scopes below

The body of a function sees the scopes of its callers and may rebind what they bind.  But a name
that some scope binds stays bound there until the scope is left, and rebinding stops at the nearest
scope that binds the name.  So while that scope is there, nothing rebinds the name in the scopes
below it.  The innermost scope of a body binds its parameters, that of a range its counter and that
of a handler the name of the error, so the scopes around them keep their bindings of these names.
-/

namespace Bhasha

namespace Scopes

/-- What each scope binds the name to, from the innermost outwards. -/
def bindings (scopes : Scopes) (name : String) : List (Option Value) :=
  scopes.frames.map (·.get? name)

/-- A scope binds the name, under so many others, and the scopes below it bind the name as given. -/
def Shields (scopes : Scopes) (name : String) (below : List (Option Value)) (above : Nat) : Prop :=
  ∃ inner value, scopes.bindings name = inner ++ some value :: below ∧ inner.length = above

/-- The scopes below the innermost one bind the name as given. -/
def Covers (scopes : Scopes) (name : String) (below : List (Option Value)) : Prop :=
  ∃ innermost, scopes.bindings name = innermost :: below

variable {scopes written : Scopes} {name other : String} {value innermost : Option Value}
  {below : List (Option Value)} {above : Nat}

theorem bindings_ne_nil (scopes : Scopes) (name : String) : scopes.bindings name ≠ [] := by
  simp [bindings, scopes.frames_ne_nil]

theorem bindings_push (scopes : Scopes) (name : String) :
    scopes.push.bindings name = none :: scopes.bindings name :=
  rfl

theorem bindings_pop (h : scopes.bindings name = innermost :: below) (hbelow : below ≠ []) :
    scopes.pop.bindings name = below := by
  obtain ⟨frame, rest, hframes, -, rfl⟩ := List.map_eq_cons_iff.mp h
  have hrest : rest ≠ [] := fun hnil => hbelow (congrArg (List.map (·.get? name)) hnil)
  rw [bindings, frames_pop hframes hrest]

theorem bindings_define (h : scopes.bindings name = innermost :: below) (other : String)
    (value : Value) :
    (scopes.define other value).bindings name =
      (if name = other then some value else innermost) :: below := by
  obtain ⟨frame, rest, hframes, rfl, rfl⟩ := List.map_eq_cons_iff.mp h
  rw [bindings, frames_define hframes, List.map_cons, Table.get?_insert]

theorem bindings_assignIn_of_ne {frames written : List Frame} {value : Value}
    (hassign : assignIn other value frames = some written) (hne : name ≠ other) :
    written.map (·.get? name) = frames.map (·.get? name) := by
  induction frames generalizing written with
  | nil => cases hassign
  | cons frame rest ih =>
      unfold assignIn at hassign
      by_cases hcontains : frame.contains other = true
      · rw [if_pos hcontains] at hassign
        cases hassign
        rw [List.map_cons, List.map_cons, Table.get?_insert, if_neg hne]
      · rw [if_neg hcontains] at hassign
        obtain ⟨others, hothers, rfl⟩ := Option.map_eq_some_iff.mp hassign
        rw [List.map_cons, List.map_cons, ih hothers]

/-- Rebinding stops at the nearest scope that binds the name. -/
theorem bindings_assignIn_self {frames written : List Frame} {inner : List (Option Value)}
    {value bound : Value} (hassign : assignIn name value frames = some written)
    (h : frames.map (·.get? name) = inner ++ some bound :: below) :
    ∃ inner' bound', written.map (·.get? name) = inner' ++ some bound' :: below ∧
      inner'.length = inner.length := by
  induction frames generalizing written inner with
  | nil => cases hassign
  | cons frame rest ih =>
      rw [List.map_cons] at h
      unfold assignIn at hassign
      by_cases hcontains : frame.contains name = true
      · rw [if_pos hcontains] at hassign
        cases hassign
        rw [List.map_cons, Table.get?_insert, if_pos rfl]
        cases inner with
        | nil => exact ⟨[], value, by rw [(List.cons.inj h).2]; rfl, rfl⟩
        | cons first inner =>
            exact ⟨some value :: inner, bound, by rw [(List.cons.inj h).2]; rfl, rfl⟩
      · rw [if_neg hcontains] at hassign
        obtain ⟨others, hothers, rfl⟩ := Option.map_eq_some_iff.mp hassign
        have hunbound : frame.get? name = none := by
          simpa [Table.contains] using hcontains
        rw [List.map_cons]
        cases inner with
        | nil =>
            rw [hunbound] at h
            cases h
        | cons first inner =>
            obtain ⟨hfirst, hrest⟩ := List.cons.inj h
            obtain ⟨inner', bound', hwritten, hlength⟩ := ih hothers hrest
            exact ⟨first :: inner', bound', by rw [hfirst, hwritten]; rfl,
              congrArg (· + 1) hlength⟩

theorem shields_zero_iff :
    scopes.Shields name below 0 ↔ ∃ value, scopes.bindings name = some value :: below := by
  constructor
  · rintro ⟨inner, value, hbindings, hlength⟩
    rw [List.eq_nil_of_length_eq_zero hlength] at hbindings
    exact ⟨value, hbindings⟩
  · rintro ⟨value, hbindings⟩
    exact ⟨[], value, hbindings, rfl⟩

namespace Shields

variable (h : scopes.Shields name below above)

include h

theorem suffix : below <:+ scopes.bindings name := by
  obtain ⟨inner, value, hbindings, -⟩ := h
  exact ⟨inner ++ [some value], by simp [hbindings]⟩

theorem push : scopes.push.Shields name below (above + 1) := by
  obtain ⟨inner, value, hbindings, hlength⟩ := h
  exact ⟨none :: inner, value, by rw [bindings_push, hbindings]; rfl, congrArg (· + 1) hlength⟩

theorem define (other : String) (value : Value) :
    (scopes.define other value).Shields name below above := by
  obtain ⟨inner, bound, hbindings, hlength⟩ := h
  cases inner with
  | nil =>
      have hdefine := bindings_define hbindings other value
      refine ⟨[], if name = other then value else bound, ?_, hlength⟩
      rw [hdefine]
      split <;> rfl
  | cons innermost inner =>
      exact ⟨_ :: inner, bound, bindings_define hbindings other value, hlength⟩

theorem assign {value : Value} (hassign : scopes.assign? other value = some written) :
    written.Shields name below above := by
  obtain ⟨inner, bound, hbindings, hlength⟩ := h
  have hframes : assignIn other value scopes.frames = some written.frames := by
    rw [← map_frames_assign?, hassign]
    rfl
  by_cases hname : name = other
  · subst hname
    obtain ⟨inner', bound', hwritten, hsame⟩ := bindings_assignIn_self hframes hbindings
    exact ⟨inner', bound', hwritten, hsame.trans hlength⟩
  · have hwritten := bindings_assignIn_of_ne hframes hname
    exact ⟨inner, bound, hwritten.trans hbindings, hlength⟩

end Shields

theorem Shields.pop (h : scopes.Shields name below (above + 1)) :
    scopes.pop.Shields name below above := by
  obtain ⟨inner, value, hbindings, hlength⟩ := h
  obtain ⟨innermost, inner, rfl⟩ := List.exists_cons_of_length_eq_add_one hlength
  exact ⟨inner, value, bindings_pop hbindings (by simp), Nat.succ.inj hlength⟩

theorem Shields.covers (h : scopes.Shields name below 0) : scopes.Covers name below := by
  obtain ⟨value, hbindings⟩ := shields_zero_iff.mp h
  exact ⟨some value, hbindings⟩

/-- The scopes with one more, which binds what the frame does. -/
def topped (frame : Frame) (scopes : Scopes) : Scopes :=
  { scopes with inner := frame :: scopes.inner }

/-- A name that the innermost scope does not bind is rebound below it. -/
theorem assign?_topped {frame : Frame} (h : frame.get? other = none)
    (scopes : Scopes) (value : Value) :
    (topped frame scopes).assign? other value = (scopes.assign? other value).map (topped frame) := by
  have hcontains : frame.contains other = false := by simp [Table.contains, h]
  unfold assign? topped
  rw [assignIn, hcontains]
  cases assignIn other value scopes.inner with
  | some inner => rfl
  | none => by_cases hlast : scopes.outermost.contains other = true <;> simp [hlast]

/-- A name that is visible can be rebound. -/
theorem exists_assign? (h : (scopes.get? name).isSome) (value : Value) :
    ∃ written, scopes.assign? name value = some written := by
  cases hassign : scopes.assign? name value with
  | some written => exact ⟨written, rfl⟩
  | none =>
      have hframes := map_frames_assign? scopes name value
      rw [hassign] at hframes
      have hnone : scopes.get? name = none := assignIn_eq_none_iff.mp hframes.symm
      rw [hnone] at h
      cases h

end Scopes

variable {name : String} {below : List (Option Value)}

/-- While a scope that binds the name is there, the bindings below it are kept. -/
theorem nested_shields (name : String) (below : List (Option Value)) :
    Nested fun above context => context.scopes.Shields name below above where
  steady _ := Stable.steady ⟨fun _ h => h, fun _ h => h, fun _ h => h, fun _ => trivial⟩
  functions _ h := h
  callDepth _ h := h
  declare other value h := h.define other value
  rebind hassign h := h.assign hassign
  enter h := h.push
  leave h := h.pop

open Action Outcome

/-- The state that is left, be the end a good one or a fault, satisfies the condition. -/
abbrev Outcome.EndsIn {α : Type} (outcome : Outcome α) (left : Context → Prop) : Prop :=
  outcome.Ends (fun _ after => left after) (fun _ after => left after)

namespace Outcome.EndsIn

variable {α : Type} {outcome : Outcome α} {left wider : Context → Prop}

theorem mono (h : outcome.EndsIn left) (hwider : ∀ after, left after → wider after) :
    outcome.EndsIn wider :=
  Ends.mono h (fun _ after => hwider after) (fun _ after => hwider after)

theorem of_leavesIn (h : outcome.EndsIn left) (after : Context) (hafter : outcome.LeavesIn after) :
    left after := by
  rcases hafter with ⟨value, rfl⟩ | ⟨raised, rfl⟩ <;> exact h

end Outcome.EndsIn

variable {fuel : Nat} {body : List Stmt} {before after : Context}

theorem suffix_of_visitsBlock (h : VisitsBlock fuel body before after)
    (hbefore : before.scopes.Shields name below 0) : below <:+ after.scopes.bindings name := by
  obtain ⟨above, hafter⟩ := (nested_shields name below).pervades.of_visitsBlock h ⟨0, hbefore⟩
  exact hafter.suffix

theorem shields_bound (h : before.scopes.Covers name below) (value : Value) :
    (before.bound name value).scopes.Shields name below 0 := by
  obtain ⟨innermost, hbindings⟩ := h
  apply Scopes.shields_zero_iff.mpr
  exact ⟨value, by rw [Context.bound, Scopes.bindings_define hbindings, if_pos rfl]⟩

/-- Names that are bound in turn shield what is below, be they bound once or again. -/
theorem shields_defineAll {bound : List (String × Value)} (hname : name ∈ bound.map Prod.fst)
    (hbefore : before.scopes.Covers name below) (h : defineAll bound before = .ok () after) :
    after.scopes.Shields name below 0 := by
  induction bound generalizing before with
  | nil => cases hname
  | cons binding rest ih =>
      have hrest : defineAll rest (before.bound binding.1 binding.2) = .ok () after := h
      by_cases hsame : name = binding.1
      · subst hsame
        have hkeeps := (nested_shields binding.1 below).keeps_defineAll rest 0
        exact (hkeeps.of_ok (shields_bound hbefore binding.2) hrest).1
      · obtain ⟨innermost, hbindings⟩ := hbefore
        have hcovers : (before.bound binding.1 binding.2).scopes.Covers name below :=
          ⟨innermost, by rw [Context.bound, Scopes.bindings_define hbindings, if_neg hsame]⟩
        exact ih ((List.mem_cons.mp hname).resolve_left hsame) hcovers hrest

theorem ends_block (hbefore : before.scopes.Shields name below 0) :
    (execBlock (exec fuel) body before).EndsIn fun after => after.scopes.Shields name below 0 :=
  ((nested_shields name below).keeps_block fuel body 0 before hbefore).mono
    (fun _ _ h => h.1) (fun _ _ h => h.1)

/-- A scope is left, and the scopes around it bind the name as before. -/
theorem ends_withScope_covers {α : Type} {action : Action α}
    (h : (action before.pushed).EndsIn fun after =>
      after.scopes.Covers name (before.scopes.bindings name)) :
    (withScope action before).EndsIn fun after =>
      after.scopes.bindings name = before.scopes.bindings name := by
  have hpop {after : Context}
      (hafter : after.scopes.Covers name (before.scopes.bindings name)) :
      after.scopes.pop.bindings name = before.scopes.bindings name := by
    obtain ⟨innermost, hbindings⟩ := hafter
    exact Scopes.bindings_pop hbindings (before.scopes.bindings_ne_nil name)
  exact ends_withScope (h.mono fun _ hafter => hpop hafter)

theorem covers_pushed (context : Context) (name : String) :
    context.pushed.scopes.Covers name (context.scopes.bindings name) :=
  ⟨none, rfl⟩

theorem ends_toResult {p : Context → Prop} (flow : Flow) (h : p after) :
    (flow.toResult after).EndsIn p := by
  cases flow <;> exact h

theorem mem_zip_parameters {function : Function} {values : List Value}
    (hname : name ∈ function.parameters) (hcount : values.length = function.parameters.length) :
    name ∈ (function.parameters.zip values).map Prod.fst := by
  rwa [List.map_fst_zip (Nat.le_of_eq hcount.symm)]

/-- However a call ends, the caller's bindings of the parameters are the same. -/
theorem ends_callFunction {function : Function} (hname : name ∈ function.parameters)
    (values : List Value) (line : Nat) (context : Context) :
    (callFunction (exec fuel) function values line context).EndsIn fun after =>
      after.scopes.bindings name = context.scopes.bindings name := by
  by_cases hcount : values.length = function.parameters.length
  · by_cases hroom : context.callDepth < context.config.maxCallDepth
    · rw [callFunction_of_room line hcount hroom, runBody]
      obtain ⟨inner, hinner⟩ :=
        defineAll_eq_ok (function.parameters.zip values) context.entered
      have hentered : context.entered.scopes.Covers name (context.scopes.bindings name) :=
        covers_pushed context name
      have hshields := shields_defineAll (mem_zip_parameters hname hcount) hentered hinner
      have hbody : ((do
          defineAll (function.parameters.zip values)
          execBlock (exec fuel) function.body) context.entered).EndsIn fun after =>
          after.scopes.Covers name (context.scopes.bindings name) := by
        apply ends_bind
        rw [hinner]
        exact (ends_block hshields).mono fun _ h => h.covers
      apply ends_bind
      apply ends_deeper
      exact Ends.mono (ends_withScope_covers hbody) (fun flow _ h => ends_toResult flow h)
        (fun _ _ h => h)
    · rw [callFunction_of_full line hcount (Nat.le_of_not_lt hroom)]
      rfl
  · rw [callFunction_of_miscount line hcount]
    rfl

section

variable {counter bound step : Float} {rounds : Nat}

/-- In a round of a range the counter is bound before the body runs. -/
theorem ends_round (hbefore : before.scopes.Covers name below) :
    ((do define name (.number counter); execBlock (exec fuel) body : Action Flow) before).EndsIn
      fun after => after.scopes.Shields name below 0 :=
  ends_bind (ends_block (shields_bound hbefore _))

theorem ends_rangeRounds (hbefore : before.scopes.Covers name below) :
    (rangeRounds name bound step (execBlock (exec fuel) body) rounds counter before).EndsIn
      fun after => after.scopes.Covers name below := by
  induction rounds generalizing counter before with
  | zero => trivial
  | succ rounds ih =>
      rw [rangeRounds_succ]
      by_cases hin : inRange bound step counter = true
      · rw [if_pos hin]
        apply ends_bind
        refine Ends.mono (ends_round hbefore) (fun flow after hafter => ?_) (fun _ _ h => h.covers)
        unfold nextRound
        cases flow.afterRound with
        | none => exact ih hafter.covers
        | some last => exact hafter.covers
      · rw [if_neg hin]
        exact hbefore

theorem covers_of_rangeRound {first last : Float}
    (h : RangeRound name bound step (execBlock (exec fuel) body) rounds first before last after)
    (hbefore : before.scopes.Covers name below) : after.scopes.Covers name below := by
  induction h with
  | first => exact hbefore
  | @next _ counter _ _ _ _ _ _ hround _ _ ih =>
      have hends : ((do
          define name (.number counter)
          execBlock (exec fuel) body : Action Flow) _).EndsIn _ := ends_round hbefore
      rw [hround] at hends
      exact ih hends.covers

end

/-- Names that are bound in turn in the innermost scope leave it without any other name. -/
theorem defineAll_topped {bound : List (String × Value)} {other : String} {frame : Frame}
    {scopes : Scopes} (hother : other ∉ bound.map Prod.fst) (hframe : frame.get? other = none)
    (hbefore : before.scopes = .topped frame scopes) :
    ∃ frame' : Frame, frame'.get? other = none ∧
      defineAll bound before = .ok () { before with scopes := .topped frame' scopes } := by
  induction bound generalizing before frame with
  | nil => exact ⟨frame, hframe, by rw [← hbefore]; rfl⟩
  | cons binding rest ih =>
      rw [List.map_cons, List.mem_cons, not_or] at hother
      have hframe' : (frame.insert binding.1 binding.2).get? other = none := by
        rw [Table.get?_insert, if_neg hother.1, hframe]
      have hbound : (before.bound binding.1 binding.2).scopes =
          .topped (frame.insert binding.1 binding.2) scopes := by
        rw [Context.bound, hbefore]
        rfl
      exact ih hother.2 hframe' hbound

/-- A function whose body rebinds a variable of its caller, and is left then. -/
theorem callFunction_of_assign {function : Function} {values : List Value} {context : Context}
    {written : Scopes} {other : String} {literal : Literal} {line : Nat} (callLine : Nat)
    (hbody : function.body = [.assign other (.literal literal line) line])
    (hother : other ∉ function.parameters) (hcount : values.length = function.parameters.length)
    (hroom : context.callDepth < context.config.maxCallDepth)
    (hassign : context.scopes.assign? other literal.toValue = some written) :
    callFunction (exec (fuel + 2)) function values callLine context =
      .ok .null { context with scopes := written } := by
  have hunbound : other ∉ (function.parameters.zip values).map Prod.fst := by
    rwa [List.map_fst_zip (Nat.le_of_eq hcount.symm)]
  have hentered : context.entered.scopes = .topped .empty context.scopes := rfl
  obtain ⟨frame, hframe, hinner⟩ := defineAll_topped hunbound rfl hentered
  have hwritten := Scopes.assign?_topped hframe context.scopes literal.toValue
  rw [hassign] at hwritten
  have hrun : (do
      defineAll (function.parameters.zip values)
      execBlock (exec (fuel + 2)) function.body) context.entered =
      .ok .normal { context.entered with scopes := .topped frame written } := by
    rw [bind_apply, hinner, hbody]
    simp only [execBlock, bind_apply, exec_succ, execWith, eval_succ, evalWith, pure_apply, assign,
      hwritten, Option.map_some]
  rw [callFunction_of_room callLine hcount hroom, runBody, bind_apply, deeper, withScope]
  simp only [Context.entered] at hrun
  simp only [hrun]
  rfl

/-- A name that a scope binds is not rebound in the scopes below it, whatever is executed, before
that scope is left.  It stays bound in that scope meanwhile.  So however a call ends, and at every
state that its body comes to, the callers bind its parameters as before; and so it is with the
scopes around a range and its counter, and with those around a handler and the name of its error.
But a body can rebind any other variable of its callers that it sees. -/
theorem shielded_of_run (fuel : Nat) (name : String) :
    (∀ (task : Task) (before : Context) (below : List (Option Value)) (above : Nat),
      before.scopes.Shields name below above →
      (∀ after, (task.action fuel before).LeavesIn after →
        after.scopes.Shields name below above) ∧
      ∀ after, task.Visits fuel before after → below <:+ after.scopes.bindings name) ∧
    (∀ (function : Function) (values : List Value) (line : Nat) (context : Context),
      name ∈ function.parameters →
      (∀ inner after, values.length = function.parameters.length →
        defineAll (function.parameters.zip values) context.entered = .ok () inner →
        VisitsBlock fuel function.body inner after →
        context.scopes.bindings name <:+ after.scopes.bindings name) ∧
      ∀ after, (callFunction (exec fuel) function values line context).LeavesIn after →
        after.scopes.bindings name = context.scopes.bindings name) ∧
    (∀ (first bound : Expr) (step : Option Expr) (body : List Stmt) (line : Nat)
      (start stop width : Float) (before second third fourth : Context),
      evalNumber (eval fuel) first line before = .ok start second →
      evalNumber (eval fuel) bound line second = .ok stop third →
      evalStep (eval fuel) step line third = .ok width fourth →
      (∀ count last after,
        RangeRound name stop width (execBlock (exec fuel) body) fuel start fourth.pushed count
          last →
        VisitsBlock fuel body (last.bound name (.number count)) after →
        fourth.scopes.bindings name <:+ after.scopes.bindings name) ∧
      ∀ after,
        (exec (fuel + 1) (.range name first bound step body line) before).LeavesIn after →
        after.scopes.bindings name = fourth.scopes.bindings name) ∧
    (∀ (body handler : List Stmt) (line : Nat) (before middle : Context) (raised : Fault),
      execBlock (exec fuel) body before = .fault raised middle →
      (∀ after,
        VisitsBlock fuel handler (middle.pushed.bound name (.text raised.message)) after →
        middle.scopes.bindings name <:+ after.scopes.bindings name) ∧
      ∀ after, (exec (fuel + 1) (.attempt body name handler line) before).LeavesIn after →
        after.scopes.bindings name = middle.scopes.bindings name) ∧
    ∀ (function : Function) (values : List Value) (literal : Literal) (line callLine : Nat)
      (context : Context),
      function.body = [.assign name (.literal literal line) line] →
      name ∉ function.parameters → values.length = function.parameters.length →
      context.callDepth < context.config.maxCallDepth →
      (context.scopes.get? name).isSome →
      ∃ written, context.scopes.assign? name literal.toValue = some written ∧
        callFunction (exec (fuel + 2)) function values callLine context =
          .ok .null { context with scopes := written } := by
  refine ⟨?_, ?_, ?_, ?_, ?_⟩
  · intro task before below above hbefore
    have hnested := nested_shields name below
    refine ⟨fun after => (hnested.keeps_action fuel task above).of_leavesIn hbefore, ?_⟩
    intro after hvisits
    obtain ⟨_, hafter⟩ := hnested.pervades.of_visits hvisits ⟨above, hbefore⟩
    exact hafter.suffix
  · intro function values line context hname
    refine ⟨?_, (ends_callFunction hname values line context).of_leavesIn⟩
    intro inner after hcount hinner hvisits
    have hentered : context.entered.scopes.Covers name (context.scopes.bindings name) :=
      covers_pushed context name
    exact suffix_of_visitsBlock hvisits
      (shields_defineAll (mem_zip_parameters hname hcount) hentered hinner)
  · intro first bound step body line start stop width before second third fourth hfirst hbound
      hstep
    constructor
    · intro count last after hround hvisits
      have hlast := covers_of_rangeRound hround (covers_pushed fourth name)
      exact suffix_of_visitsBlock hvisits (shields_bound hlast _)
    · have hloop : exec (fuel + 1) (.range name first bound step body line) before =
          withScope (rangeRounds name stop width (execBlock (exec fuel) body) fuel start)
            fourth := by
        simp only [exec_succ, execWith, bind_apply, hfirst, hbound, hstep]
      rw [hloop]
      exact (ends_withScope_covers (ends_rangeRounds (covers_pushed fourth name))).of_leavesIn
  · intro body handler line before middle raised hbody
    have hmiddle := shields_bound (covers_pushed middle name) (.text raised.message)
    refine ⟨fun after hvisits => suffix_of_visitsBlock hvisits hmiddle, ?_⟩
    have hhandler : exec (fuel + 1) (.attempt body name handler line) before =
        withScope (do
          define name (.text raised.message)
          execBlock (exec fuel) handler) middle := by
      simp only [exec_succ, execWith, handling, hbody]
    rw [hhandler]
    apply EndsIn.of_leavesIn
    apply ends_withScope_covers
    exact ends_bind ((ends_block hmiddle).mono fun _ h => h.covers)
  · intro function values literal line callLine context hbody hname hcount hroom hvisible
    obtain ⟨written, hassign⟩ := Scopes.exists_assign? hvisible literal.toValue
    exact ⟨written, hassign, callFunction_of_assign callLine hbody hname hcount hroom hassign⟩

/-- A function rebinds its parameter and another variable of its caller, which has both. -/
theorem shielded_of_run_of_call :
    let function : Function :=
      { name := "f", parameters := ["x"], line := 1
        body := [.assign "x" (.literal .null 1) 1, .assign "y" (.literal .null 1) 1] }
    let context : Context :=
      { scopes := ⟨[], ⟨[("x", .boolean true), ("y", .boolean true)]⟩⟩, random := .ofSeed 0 }
    ∃ after, callFunction (exec 2) function [.boolean false] 2 context = .ok .null after ∧
      after.scopes.bindings "x" = [some (.boolean true)] ∧ after.scopes.get? "y" = some .null := by
  intro function context
  obtain ⟨-, hcalls, -⟩ := shielded_of_run 2 "x"
  have hends := (hcalls function [.boolean false] 2 context (by decide)).2
  have hok : callFunction (exec 2) function [.boolean false] 2 context =
      .ok .null { context with
        scopes := ⟨[], ⟨[("x", .boolean true), ("y", .null)]⟩⟩ } := rfl
  exact ⟨_, hok, hends _ (.inl ⟨_, hok⟩), by decide⟩

end Bhasha
