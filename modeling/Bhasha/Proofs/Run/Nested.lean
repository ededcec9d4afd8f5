import Bhasha.Proofs.Run.Pervades

/-!
# Invariants that count the scopes above

Some properties of a state are about the scopes that were there earlier, below those that have
been entered since.  Such a property comes with the number of scopes above, which goes up by one
when a scope is entered and down by one when it is left.  If single changes keep it, then it
holds, with the same number, wherever an expression or a statement ends, and with some number at
every state that the execution comes to.
-/

namespace Bhasha

/-- The property is kept by every single change that a run makes, and entering and leaving a scope
change the number of scopes above. -/
structure Nested (kept : Nat → Context → Prop) : Prop where
  steady : ∀ above, Steady (kept above) fun _ => True
  functions : ∀ {above : Nat} {context : Context} (functions : Table Function),
    kept above context → kept above { context with functions := functions }
  callDepth : ∀ {above : Nat} {context : Context} (callDepth : Nat),
    kept above context → kept above { context with callDepth := callDepth }
  declare : ∀ {above : Nat} {context : Context} (name : String) (value : Value),
    kept above context → kept above (context.bound name value)
  rebind : ∀ {above : Nat} {context : Context} {name : String} {value : Value} {written : Scopes},
    context.scopes.assign? name value = some written → kept above context →
    kept above { context with scopes := written }
  enter : ∀ {above : Nat} {context : Context}, kept above context → kept (above + 1) context.pushed
  leave : ∀ {above : Nat} {context : Context}, kept (above + 1) context →
    kept above { context with scopes := context.scopes.pop }

open Action

/-- Wherever an action ends, the property holds with the number with which it held before. -/
abbrev Action.KeepsNested {α : Type} (kept : Nat → Context → Prop) (action : Action α) : Prop :=
  ∀ above, Keeps (kept above) (fun _ => True) (fun _ => True) action

variable {α : Type} {kept : Nat → Context → Prop}

namespace Action.KeepsNested

variable {body : Action α}

theorem withScope (h : KeepsNested kept body) (hnested : Nested kept) :
    KeepsNested kept (withScope body) := by
  intro above context hcontext
  apply ends_withScope
  exact (h (above + 1) context.pushed (hnested.enter hcontext)).mono
    (fun _ _ hafter => ⟨hnested.leave hafter.1, trivial⟩)
    (fun _ _ hafter => ⟨hnested.leave hafter.1, trivial⟩)

theorem deeper (h : KeepsNested kept body) (hnested : Nested kept) :
    KeepsNested kept (deeper body) := by
  intro above context hcontext
  apply ends_deeper
  exact (h above _ (hnested.callDepth _ hcontext)).mono
    (fun _ _ hafter => ⟨hnested.callDepth _ hafter.1, trivial⟩)
    (fun _ _ hafter => ⟨hnested.callDepth _ hafter.1, trivial⟩)

end Action.KeepsNested

theorem keepsNested_execBlock {exec : Executor}
    (hexec : ∀ statement, Action.KeepsNested kept (exec statement)) (block : List Stmt) :
    Action.KeepsNested kept (execBlock exec block) :=
  fun above => keeps_execBlock block (fun statement _ => hexec statement above) trivial

namespace Nested

variable (hnested : Nested kept)

include hnested

theorem keeps_define (name : String) (value : Value) :
    Action.KeepsNested kept (define name value) :=
  fun _ => keeps_modify fun _ hcontext => hnested.declare name value hcontext

theorem keeps_defineAll (bindings : List (String × Value)) :
    Action.KeepsNested kept (defineAll bindings) := by
  intro above
  induction bindings with
  | nil => exact keeps_pure trivial
  | cons binding rest ih =>
      exact (hnested.keeps_define binding.1 binding.2 above).bind fun _ _ => ih

theorem keeps_assign (name : String) (value : Value) (line : Nat) :
    Action.KeepsNested kept (assign name value line) := by
  intro above context hcontext
  unfold assign
  cases hassign : context.scopes.assign? name value with
  | some written => exact ⟨hnested.rebind hassign hcontext, trivial⟩
  | none => exact ⟨hcontext, trivial⟩

section

variable {eval : Evaluator} {exec : Executor}
  (hexec : ∀ statement, Action.KeepsNested kept (exec statement))

include hexec

theorem keeps_callFunction (function : Function) (arguments : List Value) (line : Nat) :
    Action.KeepsNested kept (callFunction exec function arguments line) := by
  have hbody : Action.KeepsNested kept (do
      defineAll (function.parameters.zip arguments)
      execBlock exec function.body) :=
    fun above => (hnested.keeps_defineAll _ above).bind fun _ _ =>
      keepsNested_execBlock hexec function.body above
  have hrun : Action.KeepsNested kept (runBody exec function arguments) := by
    intro above
    refine ((hbody.withScope hnested).deeper hnested above).bind fun flow _ => ?_
    cases flow with
    | normal => exact keeps_pure trivial
    | returned value line => exact keeps_pure trivial
    | broke line => exact keeps_raise trivial
    | continued line => exact keeps_raise trivial
  intro above context hcontext
  unfold callFunction
  simp only
  split
  · exact ⟨hcontext, trivial⟩
  split
  · exact ⟨hcontext, trivial⟩
  · exact hrun above context hcontext

theorem keeps_handler (errorName : String) (handler : List Stmt) (raised : Fault) :
    Action.KeepsNested kept (withScope do
      define errorName (.text raised.message)
      execBlock exec handler) := by
  have hhandler : Action.KeepsNested kept (do
      define errorName (.text raised.message)
      execBlock exec handler) :=
    fun above => (hnested.keeps_define errorName _ above).bind fun _ _ =>
      keepsNested_execBlock hexec handler above
  exact hhandler.withScope hnested

theorem keeps_ranging (counter : String) (bound step : Float) (body : List Stmt) (rounds : Nat)
    (first : Float) :
    Action.KeepsNested kept
      (withScope (rangeRounds counter bound step (execBlock exec body) rounds first)) := by
  have hrounds : Action.KeepsNested kept
      (rangeRounds counter bound step (execBlock exec body) rounds first) :=
    fun above => keeps_rangeRounds (fun count => hnested.keeps_define counter _ above)
      (keepsNested_execBlock hexec body above) trivial (fun _ _ _ _ => trivial) rounds first
  exact hrounds.withScope hnested

variable (heval : ∀ expr, Action.KeepsNested kept (eval expr))

include heval

theorem keeps_evalWith (expr : Expr) : Action.KeepsNested kept (evalWith eval exec expr) :=
  fun above => (hnested.steady above).keeps_evalWith (fun expr => heval expr above)
    (fun _ _ _ _ _ => trivial)
    (fun function arguments line _ =>
      hnested.keeps_callFunction hexec function arguments line above) expr

theorem keeps_looping (condition : Expr) (body : List Stmt) (rounds : Nat) :
    Action.KeepsNested kept
      (withScope (whileRounds (eval condition) (execBlock exec body) rounds)) := by
  have hrounds : Action.KeepsNested kept
      (whileRounds (eval condition) (execBlock exec body) rounds) :=
    fun above => keeps_whileRounds (heval condition above)
      (keepsNested_execBlock hexec body above) trivial (fun _ _ _ _ => trivial) rounds
  exact hrounds.withScope hnested

theorem keeps_execWith (rounds : Nat) (statement : Stmt) :
    Action.KeepsNested kept (execWith eval exec rounds statement) := by
  intro above
  have hsteady := hnested.steady above
  have hvalue := fun expr => heval expr above
  have hblock := fun block => keepsNested_execBlock hexec block above
  cases statement with
  | declare name value line =>
      refine (hvalue value).bind fun written _ => ?_
      exact (hnested.keeps_define name written above).bind fun _ _ => keeps_pure trivial
  | print value line =>
      refine (hvalue value).bind fun printed _ => ?_
      exact (hsteady.keeps_print printed).bind fun _ _ => keeps_pure trivial
  | assign name value line =>
      refine (hvalue value).bind fun written _ => ?_
      exact (hnested.keeps_assign name written line above).bind fun _ _ => keeps_pure trivial
  | assignIndex name position value line =>
      refine (hsteady.keeps_lookup name line).bind fun target _ => ?_
      refine (hvalue position).bind fun index _ => (hvalue value).bind fun written _ => ?_
      exact hsteady.keeps_writingStatement
        (fun store => target.haltsAt_writeIndex store index written) trivial
  | assignProperty name property value line =>
      refine (hsteady.keeps_lookup name line).bind fun target _ => ?_
      refine (hvalue value).bind fun written _ => ?_
      exact hsteady.keeps_writingStatement
        (fun _ => target.haltsAt_writeProperty property written) trivial
  | branch condition yes no line =>
      refine (hvalue condition).bind fun value _ => ?_
      by_cases htruthy : value.truthy = true
      · rw [if_pos htruthy]
        exact hblock yes
      · rw [if_neg htruthy]
        exact hblock (no.getD [])
  | loop condition body line => exact hnested.keeps_looping hexec heval condition body rounds above
  | range counter first bound step body line =>
      refine (keeps_evalNumber hvalue hsteady.faults first line).bind fun start _ => ?_
      refine (keeps_evalNumber hvalue hsteady.faults bound line).bind fun stop _ => ?_
      refine (keeps_evalStep hvalue hsteady.faults step line).bind fun width _ => ?_
      exact hnested.keeps_ranging hexec counter stop width body rounds start above
  | define name parameters body line =>
      refine Keeps.bind (keeps_modify ?_) fun _ _ => keeps_pure trivial
      exact fun _ hcontext => hnested.functions _ hcontext
  | giveBack value line =>
      exact (keeps_evalReturned hvalue value).bind fun _ _ => keeps_pure trivial
  | leave line => exact keeps_pure trivial
  | proceed line => exact keeps_pure trivial
  | attempt body errorName handler line =>
      exact (hblock body).handling fun raised =>
        hnested.keeps_handler hexec errorName handler raised above
  | expression value line => exact (hvalue value).bind fun _ _ => keeps_pure trivial

end

theorem keeps_eval_exec (fuel : Nat) :
    (∀ expr, Action.KeepsNested kept (eval fuel expr)) ∧
      ∀ statement, Action.KeepsNested kept (exec fuel statement) := by
  induction fuel with
  | zero => exact ⟨fun _ _ _ _ => trivial, fun _ _ _ _ => trivial⟩
  | succ fuel ih =>
      obtain ⟨heval, hexec⟩ := ih
      exact ⟨hnested.keeps_evalWith hexec heval, hnested.keeps_execWith hexec heval fuel⟩

theorem keeps_action (fuel : Nat) (task : Task) :
    Action.KeepsNested kept (task.action fuel) := by
  obtain ⟨heval, hexec⟩ := hnested.keeps_eval_exec fuel
  exact fun above => Bhasha.keeps_action (fun expr => heval expr above)
    (fun statement _ => hexec statement above) task.allowed_any

theorem keeps_block (fuel : Nat) (block : List Stmt) :
    Action.KeepsNested kept (execBlock (exec fuel) block) :=
  keepsNested_execBlock (hnested.keeps_eval_exec fuel).2 block

end Nested

/-- The property holds, with some number of scopes above. -/
def Kept (kept : Nat → Context → Prop) (context : Context) : Prop :=
  ∃ above, kept above context

/-- What is kept with each number is kept with some number. -/
theorem Action.KeepsNested.keeps {action : Action α} (h : Action.KeepsNested kept action) :
    Keeps (Kept kept) (fun _ => True) (fun _ => True) action := by
  rintro context ⟨above, hcontext⟩
  exact (h above context hcontext).mono (fun _ _ hafter => ⟨⟨above, hafter.1⟩, trivial⟩)
    (fun _ _ hafter => ⟨⟨above, hafter.1⟩, trivial⟩)

/-- What holds when an execution begins holds, with some number of scopes above, at every state that
it comes to. -/
theorem Nested.pervades (hnested : Nested kept) : Pervades (Kept kept) where
  eval fuel expr := ((hnested.keeps_eval_exec fuel).1 expr).keeps
  exec fuel statement := ((hnested.keeps_eval_exec fuel).2 statement).keeps
  push := fun ⟨above, h⟩ => ⟨above + 1, hnested.enter h⟩
  bind name value _ := fun ⟨above, h⟩ => ⟨above, hnested.declare name value h⟩
  opens := by
    intro fuel _ _ _ _ _ _ _ hopens _ hdefine hbefore
    obtain @⟨_, _, _, _, _, _, middle, -, -, harguments, -, -⟩ := hopens
    have heval := fun expr => ((hnested.keeps_eval_exec fuel).1 expr).keeps
    obtain ⟨above, hmiddle⟩ := ((keeps_evalAll heval _).of_ok hbefore harguments).1
    have hopened : Kept kept middle.entered :=
      ⟨above + 1, hnested.callDepth _ (hnested.enter hmiddle)⟩
    exact ((hnested.keeps_defineAll _).keeps.of_ok hopened hdefine).1
  output := fun ⟨above, h⟩ => ⟨above, (hnested.steady above).output #[] h⟩

end Bhasha
