import Bhasha.Proofs.Run.Pervades
import Bhasha.Proofs.Run.Rounds
import Bhasha.Proofs.Store.Kinds
import Bhasha.Proofs.Store.Operations

/-!
# Values that stay good

Suppose that values can be good in a store, that everything which a state binds, prints and stores
is good there, and that the single changes of a run keep this if they put good values only.  A run
sees no other values.  So it gives good values, from one such state it comes to another, and what
was good in between stays good.
-/

namespace Bhasha

/-- Plain values are good, a container passes it on to what is in it, and so is whatever is bound.
The single changes of a run lead from a state of the invariant to another one if they put good
values only, and what is good stays good. -/
structure Guarded (keeps : Context → Prop) (good : Store → Value → Prop) : Prop where
  passesOn : ∀ {context : Context}, keeps context → context.store.PassesOn (good context.store)
  found : ∀ {context : Context} {name : String} {value : Value}, keeps context →
    context.scopes.get? name = some value → good context.store value
  push : ∀ {context : Context}, keeps context → keeps context.pushed
  pop : ∀ {context : Context}, keeps context → keeps { context with scopes := context.scopes.pop }
  declare : ∀ {context : Context} {value : Value} (name : String), keeps context →
    good context.store value → keeps (context.bound name value)
  rebind : ∀ {context : Context} {name : String} {value : Value} {written : Scopes},
    keeps context → good context.store value → context.scopes.assign? name value = some written →
    keeps { context with scopes := written }
  print : ∀ {context : Context} {value : Value}, keeps context → good context.store value →
    keeps { context with output := context.output.push value }
  effect : ∀ {context : Context} {effect : Effect}, keeps context →
    effect.Carries (good context.store) →
    keeps { context with store := effect.apply context.store }
  container : ∀ {context : Context} {container : Container}, keeps context →
    (∀ item ∈ container.contents, good context.store item) →
    keeps { context with store := context.store.add container } ∧
      good (context.store.add container) (container.reference context.store.size)
  changed : ∀ {store : Store} {value : Value} (effect : Effect), good store value →
    good (effect.apply store) value
  added : ∀ {store : Store} {value : Value} (container : Container), good store value →
    good (store.add container) value
  functions : ∀ {context : Context} (functions : Table Function), keeps context →
    keeps { context with functions := functions }
  callDepth : ∀ {context : Context} (callDepth : Nat), keeps context →
    keeps { context with callDepth := callDepth }
  random : ∀ {context : Context} (random : RandomSource), keeps context →
    keeps { context with random := random }

/-- The value that a flow takes along. -/
def Flow.values : Flow → List Value
  | returned value _ => [value]
  | normal | broke _ | continued _ => []

theorem Flow.values_afterRound {flow last : Flow} (h : flow.afterRound = some last) :
    last.values ⊆ flow.values := by
  cases flow with
  | normal => cases h
  | continued line => cases h
  | broke line =>
      cases h
      exact List.nil_subset _
  | returned value line =>
      cases h
      exact List.Subset.refl _

namespace Action

variable {α β : Type} {keeps : Context → Prop} {good : Store → Value → Prop} {held : List Value}
  {given : α → List Value} {given' : β → List Value}

/-- From a state of the invariant the action comes to another one.  The values that are held stay
good, and what the action gives is good. -/
def Guards (keeps : Context → Prop) (good : Store → Value → Prop) (held : List Value)
    (given : α → List Value) (action : Action α) : Prop :=
  ∀ context, keeps context → (∀ value ∈ held, good context.store value) →
    (action context).Ends
      (fun result after => keeps after ∧ ∀ value ∈ held ++ given result, good after.store value)
      (fun _ after => keeps after ∧ ∀ value ∈ held, good after.store value)

theorem Guards.bind {first : Action α} {next : α → Action β}
    (hfirst : Guards keeps good held given first)
    (hnext : ∀ result, Guards keeps good (held ++ given result) given' (next result)) :
    Guards keeps good held given' (first >>= next) := by
  intro context hcontext hheld
  apply ends_bind
  refine (hfirst context hcontext hheld).mono (fun result middle hmiddle => ?_) fun _ _ h => h
  -- What the first action has given is no longer held.
  refine (hnext result middle hmiddle.1 hmiddle.2).mono (fun last after hafter => ?_)
    fun raised after hafter => ⟨hafter.1, fun value hvalue => ?_⟩
  · refine ⟨hafter.1, fun value hvalue => hafter.2 value ?_⟩
    rw [List.mem_append] at hvalue ⊢
    exact hvalue.imp_left (List.mem_append_left _)
  · exact hafter.2 value (List.mem_append_left _ hvalue)

theorem Guards.handling {body : Action α} {handler : Fault → Action α}
    (hbody : Guards keeps good held given body)
    (hhandler : ∀ raised, Guards keeps good held given (handler raised)) :
    Guards keeps good held given (handling body handler) := by
  intro context hcontext hheld
  apply ends_handling
  exact (hbody context hcontext hheld).mono (fun _ _ h => h)
    fun raised after hafter => hhandler raised after hafter.1 hafter.2

theorem keeps_of_guards {action : Action α} (h : Guards keeps good [] given action) :
    Keeps keeps (fun _ => True) (fun _ => True) action := by
  intro context hcontext
  exact (h context hcontext (List.forall_mem_nil _)).mono (fun _ _ hafter => ⟨hafter.1, trivial⟩)
    (fun _ _ hafter => ⟨hafter.1, trivial⟩)

theorem Guards.of_ok {action : Action α} (h : Guards keeps good [] given action)
    {before after : Context} {result : α} (hbefore : keeps before)
    (hok : action before = .ok result after) :
    keeps after ∧ ∀ value ∈ given result, good after.store value := by
  have hends := h before hbefore (List.forall_mem_nil _)
  rw [hok] at hends
  exact hends

theorem guards_raise (cause : FaultCause) (line : Nat) :
    Guards keeps good held given (raise cause line) :=
  fun _ hcontext hheld => ⟨hcontext, hheld⟩

/-- An action that changes nothing in the store, and that gives no value. -/
theorem guards_modify {change : Context → Context}
    (hstore : ∀ context, (change context).store = context.store)
    (h : ∀ context, keeps context → (∀ value ∈ held, good context.store value) →
      keeps (change context)) :
    Guards keeps good held (fun _ => []) (modify change) := by
  intro context hcontext hheld
  refine ⟨h context hcontext hheld, ?_⟩
  rw [hstore, List.append_nil]
  exact hheld

end Action

open Action

namespace Guarded

variable {α : Type} {keeps : Context → Prop} {good : Store → Value → Prop} {held : List Value}
  {given : α → List Value} (hguarded : Guarded keeps good)

include hguarded

theorem guards_pure {result : α}
    (h : ∀ value ∈ given result, value ∈ held ∨ value.address? = none) :
    Guards keeps good held given (pure result : Action α) := by
  intro context hcontext hheld
  refine ⟨hcontext, fun value hvalue => ?_⟩
  rcases List.mem_append.mp hvalue with hold | hgiven
  · exact hheld value hold
  · rcases h value hgiven with hold | hplain
    · exact hheld value hold
    · exact (hguarded.passesOn hcontext).plain hplain

theorem guards_normal : Guards keeps good held Flow.values (pure .normal : Action Flow) :=
  hguarded.guards_pure (List.forall_mem_nil _)

theorem guards_reading {read : Store → Except Fault α}
    (h : ∀ store, store.PassesOn (good store) → (∀ value ∈ held, good store value) →
      Gives (fun result => ∀ value ∈ given result, good store value) (read store)) :
    Guards keeps good held given (reading read) := by
  intro context hcontext hheld
  refine ends_ofExcept (fun result hresult => ⟨hcontext, ?_⟩) fun _ _ => ⟨hcontext, hheld⟩
  rw [List.forall_mem_append]
  exact ⟨hheld, h context.store (hguarded.passesOn hcontext) hheld result hresult⟩

theorem guards_ofExcept {result : Except Fault α}
    (h : ∀ store, store.PassesOn (good store) →
      Gives (fun result => ∀ value ∈ given result, good store value) result) :
    Guards keeps good held given (ofExcept result) :=
  hguarded.guards_reading fun store hstore _ => h store hstore

theorem guards_writing {write : Store → Except Halt (α × Effect)}
    (h : ∀ store, store.PassesOn (good store) → (∀ value ∈ held, good store value) →
      Gives (fun result => (∀ value ∈ given result.1, good store value) ∧
        result.2.Carries (good store)) (write store)) :
    Guards keeps good held given (writing write) := by
  intro context hcontext hheld
  apply ends_writing
  · intro result effect hwrite
    obtain ⟨hgiven, heffect⟩ := h context.store (hguarded.passesOn hcontext) hheld _ hwrite
    refine ⟨hguarded.effect hcontext heffect, fun value hvalue => hguarded.changed effect ?_⟩
    exact List.forall_mem_append.mpr ⟨hheld, hgiven⟩ value hvalue
  · exact fun _ _ => ⟨hcontext, hheld⟩

theorem guards_writingStatement {write : Store → Except Halt Effect}
    (h : ∀ store, (∀ value ∈ held, good store value) →
      Gives (Effect.Carries (good store)) (write store)) :
    Guards keeps good held Flow.values
      (writing fun store => (write store).map fun effect => (.normal, effect)) := by
  apply hguarded.guards_writing
  intro store _ hheld
  exact (h store hheld).map fun effect heffect => ⟨List.forall_mem_nil _, heffect⟩

theorem guards_add (container : Container) (h : ∀ value ∈ container.contents, value ∈ held) :
    Guards keeps good held (fun value => [value]) fun context =>
      .ok (container.reference context.store.size)
        { context with store := context.store.add container } := by
  intro context hcontext hheld
  have hcontents := fun value hvalue => hheld value (h value hvalue)
  obtain ⟨hafter, hmade⟩ := hguarded.container hcontext hcontents
  refine ⟨hafter, List.forall_mem_append.mpr ⟨?_, List.forall_mem_singleton.mpr hmade⟩⟩
  exact fun value hvalue => hguarded.added container (hheld value hvalue)

theorem guards_define {value : Value} (name : String)
    (hvalue : value ∈ held ∨ value.address? = none) :
    Guards keeps good held (fun _ => []) (define name value) := by
  refine guards_modify (fun _ => rfl) fun context hcontext hheld => ?_
  apply hguarded.declare name hcontext
  exact hvalue.elim (hheld value) (hguarded.passesOn hcontext).plain

theorem guards_assign {value : Value} (name : String) (line : Nat) (hvalue : value ∈ held) :
    Guards keeps good held (fun _ => []) (assign name value line) := by
  intro context hcontext hheld
  unfold assign
  cases hassign : context.scopes.assign? name value with
  | some written =>
      refine ⟨hguarded.rebind hcontext (hheld value hvalue) hassign, ?_⟩
      rwa [List.append_nil]
  | none => exact ⟨hcontext, hheld⟩

theorem guards_lookup (name : String) (line : Nat) :
    Guards keeps good held (fun value => [value]) (lookup name line) := by
  intro context hcontext hheld
  unfold lookup
  cases hvalue : context.scopes.get? name with
  | some value =>
      have hgood := List.forall_mem_singleton.mpr (hguarded.found hcontext hvalue)
      exact ⟨hcontext, List.forall_mem_append.mpr ⟨hheld, hgood⟩⟩
  | none => exact ⟨hcontext, hheld⟩

theorem guards_withScope {body : Action α} (h : Guards keeps good held given body) :
    Guards keeps good held given (withScope body) := by
  intro context hcontext hheld
  apply ends_withScope
  exact (h context.pushed (hguarded.push hcontext) hheld).mono
    (fun _ _ hafter => ⟨hguarded.pop hafter.1, hafter.2⟩)
    (fun _ _ hafter => ⟨hguarded.pop hafter.1, hafter.2⟩)

theorem guards_deeper {body : Action α} (h : Guards keeps good held given body) :
    Guards keeps good held given (deeper body) := by
  intro context hcontext hheld
  apply ends_deeper
  exact (h _ (hguarded.callDepth (context.callDepth + 1) hcontext) hheld).mono
    (fun _ _ hafter => ⟨hguarded.callDepth _ hafter.1, hafter.2⟩)
    (fun _ _ hafter => ⟨hguarded.callDepth _ hafter.1, hafter.2⟩)

theorem guards_callBuiltin (builtin : Builtin) {arguments : List Value} (line : Nat)
    (harguments : arguments ⊆ held) :
    Guards keeps good held (fun value => [value]) (callBuiltin builtin arguments line) := by
  unfold callBuiltin
  by_cases haccepts : builtin.arity.accepts arguments.length = true
  · rw [if_pos haccepts]
    have hdraw : Guards keeps good held (fun _ => []) nextDraw := by
      intro context hcontext hheld
      exact ⟨hcontext, by rwa [List.append_nil]⟩
    refine hdraw.bind fun draw => ?_
    have happly : Guards keeps good (held ++ []) (fun value => [value])
        (writing (builtin.apply arguments line draw)) := by
      apply hguarded.guards_writing
      intro store hstore hheld result hresult
      rw [List.append_nil] at hheld
      have hcarries := builtin.gives_apply hstore line draw
        (fun argument hargument => hheld argument (harguments hargument)) result hresult
      exact ⟨List.forall_mem_singleton.mpr hcarries.1, hcarries.2⟩
    have hnote (held : List Value) : Guards keeps good held (fun _ => []) builtin.noteDraw := by
      unfold Builtin.noteDraw
      by_cases hrandom : builtin = .random
      · rw [if_pos hrandom]
        exact guards_modify (fun _ => rfl) fun context hcontext _ => hguarded.random _ hcontext
      · rw [if_neg hrandom]
        exact hguarded.guards_pure (List.forall_mem_nil _)
    refine happly.bind fun result => (hnote _).bind fun _ => ?_
    exact hguarded.guards_pure (List.forall_mem_singleton.mpr (.inl (by simp)))
  · rw [if_neg haccepts]
    exact hguarded.guards_ofExcept fun _ _ => gives_error

theorem guards_defineAll {bindings : List (String × Value)}
    (h : ∀ binding ∈ bindings, binding.2 ∈ held) :
    Guards keeps good held (fun _ => []) (defineAll bindings) := by
  induction bindings generalizing held with
  | nil => exact hguarded.guards_pure (List.forall_mem_nil _)
  | cons binding rest ih =>
      rw [List.forall_mem_cons] at h
      refine (hguarded.guards_define binding.1 (.inl h.1)).bind fun _ => ih ?_
      exact fun other hother => List.mem_append_left _ (h.2 other hother)

section

variable {exec : Executor}
  (hexec : ∀ held statement, Guards keeps good held Flow.values (exec statement))

include hexec

theorem guards_block (block : List Stmt) :
    Guards keeps good held Flow.values (execBlock exec block) := by
  induction block generalizing held with
  | nil => exact hguarded.guards_normal
  | cons statement rest ih =>
      refine (hexec held statement).bind fun flow => ?_
      cases flow with
      | normal => exact ih
      | broke line => exact hguarded.guards_pure (List.forall_mem_nil _)
      | continued line => exact hguarded.guards_pure (List.forall_mem_nil _)
      | returned value line =>
          exact hguarded.guards_pure fun value hvalue => .inl (List.mem_append_right _ hvalue)

theorem guards_callFunction (function : Function) {arguments : List Value} (line : Nat)
    (harguments : arguments ⊆ held) :
    Guards keeps good held (fun value => [value]) (callFunction exec function arguments line) := by
  have hbindings : ∀ binding ∈ function.parameters.zip arguments, binding.2 ∈ held :=
    fun binding hbinding => harguments (List.of_mem_zip hbinding).2
  have hbody : Guards keeps good held Flow.values (do
      defineAll (function.parameters.zip arguments)
      execBlock exec function.body) :=
    (hguarded.guards_defineAll hbindings).bind fun _ => hguarded.guards_block hexec function.body
  have hrun : Guards keeps good held (fun value => [value]) (runBody exec function arguments) := by
    refine (hguarded.guards_deeper (hguarded.guards_withScope hbody)).bind fun flow => ?_
    cases flow with
    | normal => exact hguarded.guards_pure (List.forall_mem_singleton.mpr (.inr rfl))
    | returned value line =>
        have hheld : value ∈ held ++ [value] := List.mem_append_right _ List.mem_cons_self
        exact hguarded.guards_pure (List.forall_mem_singleton.mpr (.inl hheld))
    | broke line => exact guards_raise _ _
    | continued line => exact guards_raise _ _
  intro context hcontext hheld
  unfold callFunction
  simp only
  split
  · exact ⟨hcontext, hheld⟩
  split
  · exact ⟨hcontext, hheld⟩
  · exact hrun context hcontext hheld

end

section

variable {eval : Evaluator}
  (heval : ∀ held expr, Guards keeps good held (fun value => [value]) (eval expr))

include heval

theorem guards_evalAll (exprs : List Expr) :
    Guards keeps good held id (evalAll eval exprs) := by
  induction exprs generalizing held with
  | nil => exact hguarded.guards_pure (List.forall_mem_nil _)
  | cons expr rest ih =>
      refine (heval held expr).bind fun value => ih.bind fun values => ?_
      refine hguarded.guards_pure fun item hitem => .inl ?_
      rcases List.mem_cons.mp hitem with rfl | hrest
      · exact List.mem_append_left _ (List.mem_append_right _ List.mem_cons_self)
      · exact List.mem_append_right _ hrest

theorem guards_evalEntries (entries : List (String × Expr)) {fields : Table Value}
    (hfields : ∀ entry ∈ fields.entries, entry.2 ∈ held) :
    Guards keeps good held (fun fields => fields.entries.map Prod.snd)
      (evalEntries eval fields entries) := by
  induction entries generalizing held fields with
  | nil =>
      have hheld := List.forall_mem_map.mpr hfields
      exact hguarded.guards_pure fun value hvalue => .inl (hheld value hvalue)
  | cons entry rest ih =>
      refine (heval held entry.2).bind fun value => ih fun field hfield => ?_
      rcases Table.mem_insertEntry hfield with hold | rfl
      · exact List.mem_append_left _ (hfields field hold)
      · exact List.mem_append_right _ List.mem_cons_self

theorem guards_evalNumber (expr : Expr) (line : Nat) :
    Guards keeps good held (fun _ => []) (evalNumber eval expr line) :=
  (heval held expr).bind fun _ => hguarded.guards_ofExcept fun _ _ _ _ => List.forall_mem_nil _

theorem guards_evalStep (step : Option Expr) (line : Nat) :
    Guards keeps good held (fun _ => []) (evalStep eval step line) := by
  cases step with
  | none => exact hguarded.guards_pure (List.forall_mem_nil _)
  | some expr => exact hguarded.guards_evalNumber heval expr line

theorem guards_evalReturned (value : Option Expr) :
    Guards keeps good held (fun value => [value]) (evalReturned eval value) := by
  cases value with
  | none => exact hguarded.guards_pure (List.forall_mem_singleton.mpr (.inr rfl))
  | some expr => exact heval held expr

end

theorem guards_nextRound {next : Action Flow} (flow : Flow)
    (hnext : Guards keeps good (held ++ flow.values) Flow.values next) :
    Guards keeps good (held ++ flow.values) Flow.values (nextRound next flow) := by
  unfold nextRound
  cases hlast : flow.afterRound with
  | none => exact hnext
  | some last =>
      apply hguarded.guards_pure
      exact fun value hvalue =>
        .inl (List.mem_append_right _ (Flow.values_afterRound hlast hvalue))

theorem guards_whileRounds {condition : Action Value} {body : Action Flow}
    (hcondition : ∀ held, Guards keeps good held (fun value => [value]) condition)
    (hbody : ∀ held, Guards keeps good held Flow.values body) (rounds : Nat) :
    Guards keeps good held Flow.values (whileRounds condition body rounds) := by
  induction rounds generalizing held with
  | zero => exact fun _ _ _ => trivial
  | succ rounds ih =>
      rw [whileRounds_succ]
      refine (hcondition held).bind fun value => ?_
      by_cases htruthy : value.truthy = true
      · rw [if_pos htruthy]
        exact (hbody _).bind fun flow => hguarded.guards_nextRound flow ih
      · rw [if_neg htruthy]
        exact hguarded.guards_normal

theorem guards_rangeRounds {name : String} {bound step : Float} {body : Action Flow}
    (hbody : ∀ held, Guards keeps good held Flow.values body) (rounds : Nat) (counter : Float) :
    Guards keeps good held Flow.values (rangeRounds name bound step body rounds counter) := by
  induction rounds generalizing held counter with
  | zero => exact fun _ _ _ => trivial
  | succ rounds ih =>
      rw [rangeRounds_succ]
      by_cases hin : inRange bound step counter = true
      · rw [if_pos hin]
        have hround : Guards keeps good held Flow.values
            (do define name (.number counter); body : Action Flow) :=
          (hguarded.guards_define name (.inr rfl)).bind fun _ => hbody _
        exact hround.bind fun flow => hguarded.guards_nextRound flow (ih _)
      · rw [if_neg hin]
        exact hguarded.guards_normal

section

variable {eval : Evaluator} {exec : Executor}
  (heval : ∀ held expr, Guards keeps good held (fun value => [value]) (eval expr))
  (hexec : ∀ held statement, Guards keeps good held Flow.values (exec statement))

include heval hexec

theorem guards_evalCall (name : String) (arguments : List Expr) (line : Nat) :
    Guards keeps good held (fun value => [value]) (evalCall eval exec name arguments line) := by
  unfold evalCall
  cases Builtin.ofName? name with
  | some builtin =>
      refine (hguarded.guards_evalAll heval arguments).bind fun values => ?_
      exact hguarded.guards_callBuiltin builtin line (List.subset_append_right _ _)
  | none =>
      have hfind : Guards keeps good held (fun _ => []) (findFunction name line) := by
        intro context hcontext hheld
        unfold findFunction
        cases context.functions.get? name with
        | some function => exact ⟨hcontext, by rwa [List.append_nil]⟩
        | none => exact ⟨hcontext, hheld⟩
      refine hfind.bind fun function => (hguarded.guards_evalAll heval arguments).bind ?_
      exact fun values =>
        hguarded.guards_callFunction hexec function line (List.subset_append_right _ _)

theorem guards_evalWith (expr : Expr) :
    Guards keeps good held (fun value => [value]) (evalWith eval exec expr) := by
  cases expr with
  | literal value line =>
      have hplain : value.toValue.address? = none := by cases value <;> rfl
      exact hguarded.guards_pure (List.forall_mem_singleton.mpr (.inr hplain))
  | var name line => exact hguarded.guards_lookup name line
  | unary op operand line =>
      refine (heval held operand).bind fun value => hguarded.guards_ofExcept fun store hstore => ?_
      exact fun result hresult =>
        List.forall_mem_singleton.mpr (op.gives_apply hstore.plain value line result hresult)
  | binary op left right line =>
      refine (heval held left).bind fun leftValue => (heval _ right).bind fun rightValue => ?_
      refine hguarded.guards_reading fun store hstore _ result hresult => ?_
      have hgood := op.gives_apply hstore.plain leftValue rightValue line result hresult
      exact List.forall_mem_singleton.mpr hgood
  | logical op left right line =>
      refine (heval held left).bind fun value => ?_
      by_cases hdecides : op.decides value = true
      · rw [if_pos hdecides]
        exact hguarded.guards_pure fun item hitem => .inl (List.mem_append_right _ hitem)
      · rw [if_neg hdecides]
        exact heval _ right
  | list elements line =>
      refine (hguarded.guards_evalAll heval elements).bind fun values => ?_
      exact hguarded.guards_add (.list values.toArray)
        fun value hvalue => List.mem_append_right _ hvalue
  | record entries line =>
      refine (hguarded.guards_evalEntries heval entries (List.forall_mem_nil _)).bind
        fun fields => ?_
      exact hguarded.guards_add (.record fields)
        fun value hvalue => List.mem_append_right _ hvalue
  | index target position line =>
      refine (heval held target).bind fun targetValue => (heval _ position).bind fun place => ?_
      refine hguarded.guards_reading fun store hstore hheld result hresult => ?_
      have htarget := hheld targetValue (by simp)
      exact List.forall_mem_singleton.mpr
        (Value.gives_readIndex hstore htarget place result hresult)
  | property target name line =>
      refine (heval held target).bind fun targetValue => ?_
      refine hguarded.guards_reading fun store hstore hheld result hresult => ?_
      have htarget := hheld targetValue (by simp)
      exact List.forall_mem_singleton.mpr
        (Value.gives_readProperty hstore htarget name result hresult)
  | call name arguments line => exact hguarded.guards_evalCall heval hexec name arguments line

theorem guards_execWith (rounds : Nat) (statement : Stmt) :
    Guards keeps good held Flow.values (execWith eval exec rounds statement) := by
  have hlast {held : List Value} {value : Value} : value ∈ held ++ [value] :=
    List.mem_append_right _ List.mem_cons_self
  cases statement with
  | declare name value line =>
      refine (heval held value).bind fun written => ?_
      exact (hguarded.guards_define name (.inl hlast)).bind fun _ => hguarded.guards_normal
  | print value line =>
      refine (heval held value).bind fun printed => ?_
      have hprint : Guards keeps good (held ++ [printed]) (fun _ => []) (Action.print printed) :=
        guards_modify (fun _ => rfl) fun context hcontext hheld =>
          hguarded.print hcontext (hheld printed hlast)
      exact hprint.bind fun _ => hguarded.guards_normal
  | assign name value line =>
      refine (heval held value).bind fun written => ?_
      exact (hguarded.guards_assign name line hlast).bind fun _ => hguarded.guards_normal
  | assignIndex name position value line =>
      refine (hguarded.guards_lookup name line).bind fun target => ?_
      refine (heval _ position).bind fun index => (heval _ value).bind fun written => ?_
      refine hguarded.guards_writingStatement fun store hheld => ?_
      exact Value.gives_writeIndex (hheld target (by simp)) (hheld written hlast) index
  | assignProperty name property value line =>
      refine (hguarded.guards_lookup name line).bind fun target => ?_
      refine (heval _ value).bind fun written => ?_
      refine hguarded.guards_writingStatement fun store hheld => ?_
      exact Value.gives_writeProperty (hheld target (by simp)) (hheld written hlast) property
  | branch condition yes no line =>
      refine (heval held condition).bind fun value => ?_
      by_cases htruthy : value.truthy = true
      · rw [if_pos htruthy]
        exact hguarded.guards_block hexec yes
      · rw [if_neg htruthy]
        exact hguarded.guards_block hexec (no.getD [])
  | loop condition body line =>
      apply hguarded.guards_withScope
      exact hguarded.guards_whileRounds (heval · condition)
        (fun _ => hguarded.guards_block hexec body) rounds
  | range counter first bound step body line =>
      refine (hguarded.guards_evalNumber heval first line).bind fun start => ?_
      refine (hguarded.guards_evalNumber heval bound line).bind fun stop => ?_
      refine (hguarded.guards_evalStep heval step line).bind fun width => ?_
      apply hguarded.guards_withScope
      exact hguarded.guards_rangeRounds (fun _ => hguarded.guards_block hexec body) rounds start
  | define name parameters body line =>
      refine Guards.bind (guards_modify (fun _ => rfl) fun context hcontext _ => ?_)
        fun _ => hguarded.guards_normal
      exact hguarded.functions _ hcontext
  | giveBack value line =>
      refine (hguarded.guards_evalReturned heval value).bind fun returned => ?_
      exact hguarded.guards_pure fun item hitem => .inl (List.mem_append_right _ hitem)
  | leave line => exact hguarded.guards_pure (List.forall_mem_nil _)
  | proceed line => exact hguarded.guards_pure (List.forall_mem_nil _)
  | attempt body errorName handler line =>
      refine (hguarded.guards_block hexec body).handling fun raised => ?_
      apply hguarded.guards_withScope
      exact (hguarded.guards_define errorName (.inr rfl)).bind fun _ =>
        hguarded.guards_block hexec handler
  | expression value line => exact (heval held value).bind fun _ => hguarded.guards_normal

end

/-- Expressions and statements keep the invariant and give good values. -/
theorem guards_eval_exec (fuel : Nat) :
    (∀ held expr, Guards keeps good held (fun value => [value]) (eval fuel expr)) ∧
      ∀ held statement, Guards keeps good held Flow.values (exec fuel statement) := by
  induction fuel with
  | zero => exact ⟨fun _ _ _ _ _ => trivial, fun _ _ _ _ _ => trivial⟩
  | succ fuel ih =>
      obtain ⟨heval, hexec⟩ := ih
      exact ⟨fun _ => hguarded.guards_evalWith heval hexec,
        fun _ => hguarded.guards_execWith heval hexec fuel⟩

/-- An invariant that does not speak of what has been handed over holds all through a run. -/
theorem pervades (houtput : ∀ {context : Context}, keeps context →
    keeps { context with output := #[] }) : Pervades keeps where
  eval fuel expr := keeps_of_guards ((hguarded.guards_eval_exec fuel).1 [] expr)
  exec fuel statement := keeps_of_guards ((hguarded.guards_eval_exec fuel).2 [] statement)
  push := hguarded.push
  bind name value hplain hcontext :=
    hguarded.declare name hcontext ((hguarded.passesOn hcontext).plain hplain)
  opens := by
    intro fuel call before opened after function values bound hopens hbound hdefine hbefore
    obtain @⟨name, arguments, _, _, _, _, middle, -, -, harguments, -, -⟩ := hopens
    have hvalues := (hguarded.guards_evalAll (hguarded.guards_eval_exec fuel).1 arguments).of_ok
      hbefore harguments
    have hopened := hguarded.push (hguarded.callDepth (middle.callDepth + 1) hvalues.1)
    have hheld : ∀ binding ∈ bound, binding.2 ∈ values :=
      fun binding hbinding => (List.of_mem_zip (hbound.subset hbinding)).2
    have hends := hguarded.guards_defineAll hheld middle.entered hopened hvalues.2
    rw [hdefine] at hends
    exact hends.1
  output := houtput

end Guarded

end Bhasha
