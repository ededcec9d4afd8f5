import Bhasha.Proofs.Run.OperationFaults
import Bhasha.Proofs.Run.Outcome
import Bhasha.Proofs.Table.Insertion

/-!
# Invariants of a run

An action keeps an invariant of the state if it ends, from states of the invariant, in states of
the invariant only.  Along with this go what its value is known to be and which faults it may
raise.  An invariant that the changes of the store, the output and the random numbers keep is kept
by all that expressions do, except for the calls that they make.
-/

namespace Bhasha

variable {α β : Type} {keeps : Context → Prop} {faults : Fault → Prop}

namespace Action

open Outcome

/-- From states of the invariant an action ends in states of the invariant, with a value or a
fault as described. -/
def Keeps (keeps : Context → Prop) (faults : Fault → Prop) (post : α → Prop) (action : Action α) :
    Prop :=
  ∀ context, keeps context → (action context).Ends
    (fun value after => keeps after ∧ post value) (fun raised after => keeps after ∧ faults raised)

variable {post : α → Prop} {then_ : β → Prop}

theorem Keeps.mono
    {action : Action α} {weaker : α → Prop} (h : Keeps keeps faults post action)
    (hweaker : ∀ value, post value → weaker value) : Keeps keeps faults weaker action := by
  intro context hcontext
  exact (h context hcontext).mono (fun value _ h => ⟨h.1, hweaker value h.2⟩) (fun _ _ h => h)

theorem keeps_pure {value : α} (h : post value) :
    Keeps keeps faults post (pure value : Action α) :=
  fun _ hcontext => ⟨hcontext, h⟩

theorem Keeps.bind
    {first : Action α} {next : α → Action β} (hfirst : Keeps keeps faults post first)
    (hnext : ∀ value, post value → Keeps keeps faults then_ (next value)) :
    Keeps keeps faults then_ (first >>= next) := by
  intro context hcontext
  apply ends_bind
  exact (hfirst context hcontext).mono
    (fun value after h => hnext value h.2 after h.1) (fun _ _ h => h)

theorem keeps_modify
    {change : Context → Context} (h : ∀ context, keeps context → keeps (change context)) :
    Keeps keeps faults (fun _ => True) (modify change) :=
  fun context hcontext => ⟨h context hcontext, trivial⟩

theorem keeps_raise {cause : FaultCause} {line : Nat} (h : faults ⟨cause, line⟩) :
    Keeps keeps faults post (raise cause line) :=
  fun _ hcontext => ⟨hcontext, h⟩

theorem keeps_ofExcept
    {result : Except Fault α} (h : ∀ raised, result = .error raised → faults raised) :
    Keeps keeps faults (fun _ => True) (ofExcept result) := by
  intro context hcontext
  exact ends_ofExcept (fun _ _ => ⟨hcontext, trivial⟩) (fun raised hraised =>
    ⟨hcontext, h raised hraised⟩)

theorem Keeps.handling
    {body : Action α} {handler : Fault → Action α} (hbody : Keeps keeps faults post body)
    (hhandler : ∀ raised, Keeps keeps faults post (handler raised)) :
    Keeps keeps faults post (handling body handler) := by
  intro context hcontext
  apply ends_handling
  exact (hbody context hcontext).mono (fun _ _ h => h)
    (fun raised after h => hhandler raised after h.1)

theorem Keeps.withScope
    {body : Action α}
    (hpush : ∀ context, keeps context → keeps { context with scopes := context.scopes.push })
    (hpop : ∀ context, keeps context → keeps { context with scopes := context.scopes.pop })
    (h : Keeps keeps faults post body) : Keeps keeps faults post (withScope body) := by
  intro context hcontext
  apply ends_withScope
  exact (h _ (hpush context hcontext)).mono (fun _ after h => ⟨hpop after h.1, h.2⟩)
    (fun _ after h => ⟨hpop after h.1, h.2⟩)

end Action

open Action

section

variable {eval : Evaluator} {exec : Executor} {post : Flow → Prop}

theorem keeps_evalAll_each {each : Value → Prop}
    (heval : ∀ expr, Keeps keeps faults each (eval expr)) (exprs : List Expr) :
    Keeps keeps faults (fun values => ∀ value ∈ values, each value) (evalAll eval exprs) := by
  induction exprs with
  | nil => exact keeps_pure (List.forall_mem_nil each)
  | cons expr rest ih =>
      refine (heval expr).bind fun value hvalue => ih.bind fun values hvalues => ?_
      exact keeps_pure (List.forall_mem_cons.mpr ⟨hvalue, hvalues⟩)

theorem keeps_evalAll
    (heval : ∀ expr, Keeps keeps faults (fun _ => True) (eval expr)) (exprs : List Expr) :
    Keeps keeps faults (fun _ => True) (evalAll eval exprs) :=
  (keeps_evalAll_each heval exprs).mono fun _ _ => trivial

theorem keeps_evalEntries
    (heval : ∀ expr, Keeps keeps faults (fun _ => True) (eval expr)) {fields : Table Value}
    (hfields : fields.names.Nodup) (entries : List (String × Expr)) :
    Keeps keeps faults (fun fields => fields.names.Nodup) (evalEntries eval fields entries) := by
  induction entries generalizing fields with
  | nil => exact keeps_pure hfields
  | cons entry rest ih =>
      exact (heval entry.2).bind fun value _ => ih (Table.nodup_names_insert hfields entry.1 value)

theorem keeps_execBlock
    (block : List Stmt) (hexec : ∀ statement ∈ block, Keeps keeps faults post (exec statement))
    (hnormal : post .normal) : Keeps keeps faults post (execBlock exec block) := by
  induction block with
  | nil => exact keeps_pure hnormal
  | cons statement rest ih =>
      refine (hexec statement (by simp)).bind fun flow hflow => ?_
      cases flow with
      | normal => exact ih fun other hother => hexec other (by simp [hother])
      | broke line => exact keeps_pure hflow
      | continued line => exact keeps_pure hflow
      | returned value line => exact keeps_pure hflow

variable {round : Flow → Prop}

theorem ends_afterRound
    {flow : Flow} {after : Context} {next : Context → Outcome Flow}
    {failed : Fault → Context → Prop} (hafter : keeps after)
    (hlast : ∀ last, flow.afterRound = some last → post last)
    (hnext : (next after).Ends (fun flow after => keeps after ∧ post flow) failed) :
    (match flow.afterRound with
      | none => next after
      | some last => .ok last after).Ends (fun flow after => keeps after ∧ post flow) failed := by
  cases hflow : flow.afterRound with
  | none => exact hnext
  | some last => exact ⟨hafter, hlast last hflow⟩

theorem keeps_whileRounds
    {condition : Action Value} {body : Action Flow}
    (hcondition : Keeps keeps faults (fun _ => True) condition)
    (hbody : Keeps keeps faults round body) (hnormal : post .normal)
    (hround : ∀ flow last, round flow → flow.afterRound = some last → post last) (rounds : Nat) :
    Keeps keeps faults post (whileRounds condition body rounds) := by
  induction rounds with
  | zero => exact fun _ _ => trivial
  | succ rounds ih =>
      intro context hcontext
      have hfirst := hcondition context hcontext
      unfold whileRounds
      cases hvalue : condition context with
      | ok value middle =>
          rw [hvalue] at hfirst
          have hsecond := hbody middle hfirst.1
          by_cases htruthy : value.truthy = true
          · simp only [htruthy, if_true]
            cases hflow : body middle with
            | ok flow after =>
                rw [hflow] at hsecond
                exact ends_afterRound hsecond.1 (fun last => hround flow last hsecond.2)
                  (ih after hsecond.1)
            | fault raised after =>
                rw [hflow] at hsecond
                exact hsecond
            | fatal => trivial
            | outOfFuel => trivial
          · simp only [htruthy]
            exact ⟨hfirst.1, hnormal⟩
      | fault raised after =>
          rw [hvalue] at hfirst
          exact hfirst
      | fatal => trivial
      | outOfFuel => trivial

theorem keeps_rangeRounds
    {name : String} {bound step : Float} {body : Action Flow}
    (hdefine : ∀ counter, Keeps keeps faults (fun _ => True) (define name (.number counter)))
    (hbody : Keeps keeps faults round body) (hnormal : post .normal)
    (hround : ∀ flow last, round flow → flow.afterRound = some last → post last) (rounds : Nat)
    (counter : Float) :
    Keeps keeps faults post (rangeRounds name bound step body rounds counter) := by
  induction rounds generalizing counter with
  | zero => exact fun _ _ => trivial
  | succ rounds ih =>
      intro context hcontext
      have hfirst := (hdefine counter).bind (fun _ _ => hbody) context hcontext
      unfold rangeRounds
      by_cases hin : inRange bound step counter = true
      · simp only [hin, if_true]
        cases hflow : (do define name (.number counter); body : Action Flow) context with
        | ok flow after =>
            rw [hflow] at hfirst
            exact ends_afterRound hfirst.1 (fun last => hround flow last hfirst.2)
              (ih _ after hfirst.1)
        | fault raised after =>
            rw [hflow] at hfirst
            exact hfirst
        | fatal => trivial
        | outOfFuel => trivial
      · simp only [hin]
        exact ⟨hcontext, hnormal⟩

end

section

variable {eval : Evaluator} (heval : ∀ expr, Keeps keeps faults (fun _ => True) (eval expr))

include heval

theorem keeps_evalReturned (value : Option Expr) :
    Keeps keeps faults (fun _ => True) (evalReturned eval value) := by
  cases value with
  | none => exact keeps_pure trivial
  | some expr => exact heval expr

variable (hfaults : ∀ {line : Nat} {raised : Fault}, raised.ArisesAt line → faults raised)

include hfaults

theorem keeps_evalNumber (expr : Expr) (line : Nat) :
    Keeps keeps faults (fun _ => True) (evalNumber eval expr line) :=
  (heval expr).bind fun value _ => keeps_ofExcept fun raised hraised =>
    hfaults (faultsAt_asNumber value raised hraised)

theorem keeps_evalStep (step : Option Expr) (line : Nat) :
    Keeps keeps faults (fun _ => True) (evalStep eval step line) := by
  cases step with
  | none => exact keeps_pure trivial
  | some expr => exact keeps_evalNumber heval hfaults expr line

end

/-- The invariant is kept by every change of the store that operations make, by the output and by
the random numbers, and operations on values may raise their faults.  A record is added with
distinct keys only. -/
structure Steady (keeps : Context → Prop) (faults : Fault → Prop) : Prop where
  effect : ∀ {context : Context} (effect : Effect), keeps context →
    keeps { context with store := effect.apply context.store }
  list : ∀ {context : Context} (items : Array Value), keeps context →
    keeps { context with store := context.store.add (.list items) }
  record : ∀ {context : Context} {fields : Table Value}, fields.names.Nodup → keeps context →
    keeps { context with store := context.store.add (.record fields) }
  output : ∀ {context : Context} (output : Array Value),
    keeps context → keeps { context with output := output }
  random : ∀ {context : Context} (random : RandomSource),
    keeps context → keeps { context with random := random }
  faults : ∀ {line : Nat} {raised : Fault}, raised.ArisesAt line → faults raised

/-- The invariant does not depend on the store, the output or the random numbers, and operations on
values may raise their faults. -/
structure Stable (keeps : Context → Prop) (faults : Fault → Prop) : Prop where
  store : ∀ {context : Context} (store : Store), keeps context →
    keeps { context with store := store }
  output : ∀ {context : Context} (output : Array Value),
    keeps context → keeps { context with output := output }
  random : ∀ {context : Context} (random : RandomSource),
    keeps context → keeps { context with random := random }
  faults : ∀ {line : Nat} {raised : Fault}, raised.ArisesAt line → faults raised

theorem Stable.steady (h : Stable keeps faults) : Steady keeps faults where
  effect _ hcontext := h.store _ hcontext
  list _ hcontext := h.store _ hcontext
  record _ hcontext := h.store _ hcontext
  output := h.output
  random := h.random
  faults := h.faults

namespace Steady

variable (hsteady : Steady keeps faults)

include hsteady

theorem keeps_operation {result : Except Fault α} {line : Nat} (h : FaultsAt line result) :
    Keeps keeps faults (fun _ => True) (ofExcept result) :=
  keeps_ofExcept fun raised hraised => hsteady.faults (h raised hraised)

theorem keeps_reading
    {read : Store → Except Fault α} {line : Nat} (h : ∀ store, FaultsAt line (read store)) :
    Keeps keeps faults (fun _ => True) (reading read) :=
  fun context => hsteady.keeps_operation (h context.store) context

theorem keeps_writing
    {write : Store → Except Halt (α × Effect)} {post : α → Prop} {line : Nat}
    (h : ∀ store, HaltsAt line (write store))
    (hpost : ∀ store value effect, write store = .ok (value, effect) → post value) :
    Keeps keeps faults post (writing write) := by
  intro context hcontext
  exact ends_writing
    (fun value effect hwrite => ⟨hsteady.effect effect hcontext, hpost _ _ _ hwrite⟩)
    (fun raised hraised => ⟨hcontext, hsteady.faults (h _ raised hraised)⟩)

theorem keeps_writingStatement
    {write : Store → Except Halt Effect} {post : Flow → Prop} {line : Nat}
    (h : ∀ store, HaltsAt line (write store)) (hnormal : post .normal) :
    Keeps keeps faults post
      (writing fun store => (write store).map fun effect => (.normal, effect)) := by
  refine hsteady.keeps_writing (fun store => (h store).map _) ?_
  intro store flow effect hwrite
  cases hresult : write store <;> rw [hresult] at hwrite <;> cases hwrite
  exact hnormal

theorem keeps_print (value : Value) : Keeps keeps faults (fun _ => True) (print value) :=
  keeps_modify fun _ hcontext => hsteady.output _ hcontext

theorem keeps_lookup (name : String) (line : Nat) :
    Keeps keeps faults (fun _ => True) (lookup name line) := by
  intro context hcontext
  unfold lookup
  cases context.scopes.get? name with
  | some value => exact ⟨hcontext, trivial⟩
  | none => exact ⟨hcontext, hsteady.faults ⟨rfl, rfl⟩⟩

theorem keeps_callBuiltin (builtin : Builtin) (arguments : List Value) (line : Nat) :
    Keeps keeps faults (fun _ => True) (callBuiltin builtin arguments line) := by
  unfold callBuiltin
  by_cases haccepts : builtin.arity.accepts arguments.length = true
  · rw [if_pos haccepts]
    have hdraw : Keeps keeps faults (fun _ => True) nextDraw :=
      fun context hcontext => ⟨hcontext, trivial⟩
    have hnote : Keeps keeps faults (fun _ => True) builtin.noteDraw := by
      unfold Builtin.noteDraw
      by_cases hrandom : builtin = .random
      · rw [if_pos hrandom]
        exact keeps_modify fun context hcontext => hsteady.random _ hcontext
      · rw [if_neg hrandom]
        exact keeps_pure trivial
    refine hdraw.bind fun draw _ => ?_
    have hhalts : ∀ store, HaltsAt line (builtin.apply arguments line draw store) :=
      builtin.haltsAt_apply arguments draw
    have hwriting : Keeps keeps faults (fun _ => True)
        (writing (builtin.apply arguments line draw)) :=
      hsteady.keeps_writing hhalts fun _ _ _ _ => trivial
    exact hwriting.bind fun result _ => hnote.bind fun _ _ => keeps_pure trivial
  · rw [if_neg haccepts]
    exact hsteady.keeps_operation (faultsAt_error (builtin.arisesAt_miscount arguments))

variable {eval : Evaluator} {exec : Executor} {found : Function → Prop}
  (heval : ∀ expr, Keeps keeps faults (fun _ => True) (eval expr))

include heval

theorem keeps_evalCall
    (hfound : ∀ context name function, keeps context →
      context.functions.get? name = some function → found function)
    (hcall : ∀ function arguments line, found function →
      Keeps keeps faults (fun _ => True) (callFunction exec function arguments line))
    (name : String) (arguments : List Expr) (line : Nat) :
    Keeps keeps faults (fun _ => True) (evalCall eval exec name arguments line) := by
  unfold evalCall
  cases Builtin.ofName? name with
  | some builtin =>
      exact (keeps_evalAll heval arguments).bind fun values _ =>
        hsteady.keeps_callBuiltin builtin values line
  | none =>
      have hfind : Keeps keeps faults found (findFunction name line) := by
        intro context hcontext
        unfold findFunction
        cases hget : context.functions.get? name with
        | some function => exact ⟨hcontext, hfound context name function hcontext hget⟩
        | none => exact ⟨hcontext, hsteady.faults ⟨rfl, rfl⟩⟩
      refine hfind.bind fun function hfunction => (keeps_evalAll heval arguments).bind ?_
      exact fun values _ => hcall function values line hfunction

theorem keeps_evalWith
    (hfound : ∀ context name function, keeps context →
      context.functions.get? name = some function → found function)
    (hcall : ∀ function arguments line, found function →
      Keeps keeps faults (fun _ => True) (callFunction exec function arguments line))
    (expr : Expr) : Keeps keeps faults (fun _ => True) (evalWith eval exec expr) := by
  cases expr with
  | literal value line => exact keeps_pure trivial
  | var name line => exact hsteady.keeps_lookup name line
  | unary op operand line =>
      exact (heval operand).bind fun value _ => hsteady.keeps_operation (op.faultsAt_apply value)
  | binary op left right line =>
      refine (heval left).bind fun leftValue _ => (heval right).bind fun rightValue _ => ?_
      exact hsteady.keeps_reading fun store => op.faultsAt_apply store leftValue rightValue
  | logical op left right line =>
      refine (heval left).bind fun value _ => ?_
      by_cases hdecides : op.decides value = true
      · rw [if_pos hdecides]
        exact keeps_pure trivial
      · rw [if_neg hdecides]
        exact heval right
  | list elements line =>
      refine (keeps_evalAll heval elements).bind fun values _ => ?_
      exact fun context hcontext => ⟨hsteady.list _ hcontext, trivial⟩
  | record entries line =>
      have hempty : (.empty : Table Value).names.Nodup := List.nodup_nil
      refine (keeps_evalEntries heval hempty entries).bind fun fields hfields => ?_
      exact fun context hcontext => ⟨hsteady.record hfields hcontext, trivial⟩
  | index target position line =>
      refine (heval target).bind fun targetValue _ => (heval position).bind fun place _ => ?_
      exact hsteady.keeps_reading fun store => targetValue.faultsAt_readIndex store place
  | property target name line =>
      refine (heval target).bind fun targetValue _ => ?_
      exact hsteady.keeps_reading fun store => targetValue.faultsAt_readProperty store name
  | call name arguments line =>
      exact hsteady.keeps_evalCall heval hfound hcall name arguments line

end Steady

end Bhasha
