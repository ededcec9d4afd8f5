import Bhasha.Proofs.Program.Places
import Bhasha.Proofs.Run.Invariant

/-!
# What is executed in a run

A run executes expressions and statements in states, and each of these tasks executes further
ones with less fuel.  Which tasks a task executes, and in which states, is given here once and
for all: a task needs the tasks in its own text, and a call enters the body of a function, which
counts as one more body that is running.
-/

namespace Bhasha

inductive Task where
  | eval (expr : Expr)
  | exec (statement : Stmt)

/-- Executing a task, where the value of an expression is forgotten. -/
def Task.action (fuel : Nat) : Task → Action Flow
  | eval expr => do
      let _ ← Bhasha.eval fuel expr
      return .normal
  | exec statement => Bhasha.exec fuel statement

/-- A task is executed in a state when tasks are executed in turn, which ends with the first task
that does not hand over control to the next one. -/
inductive InTurn (fuel : Nat) : List Task → Context → Task → Context → Prop where
  | first {task : Task} {rest : List Task} {context : Context} :
      InTurn fuel (task :: rest) context task context
  | later {task found : Task} {rest : List Task} {before middle after : Context} :
      task.action fuel before = .ok .normal middle → InTurn fuel rest middle found after →
      InTurn fuel (task :: rest) before found after

/-- The expressions that evaluating an expression starts with. -/
def Expr.operands : Expr → List Expr
  | .literal .. | .var .. => []
  | .unary _ operand _ => [operand]
  | .binary _ left right _ => [left, right]
  | .logical _ left _ _ => [left]
  | .list elements _ => elements
  | .record entries _ => entries.map Prod.snd
  | .index target position _ => [target, position]
  | .property target _ _ => [target]
  | .call _ arguments _ => arguments

/-- The expressions that executing a statement starts with, loops apart. -/
def Stmt.operands : Stmt → List Expr
  | .declare _ value _ | .print value _ | .assign _ value _ | .assignProperty _ _ value _
  | .expression value _ => [value]
  | .assignIndex _ position value _ => [position, value]
  | .branch condition .. => [condition]
  | .giveBack value _ => value.toList
  | .loop .. | .range .. | .define .. | .leave .. | .proceed .. | .attempt .. => []

/-- A call looks for its function before it evaluates its arguments. -/
def Expr.Ready (context : Context) : Expr → Prop
  | .call name _ _ => (Builtin.ofName? name).isSome ∨ (context.functions.get? name).isSome
  | _ => True

/-- A write into a container looks for the container first. -/
def Stmt.Ready (context : Context) : Stmt → Prop
  | .assignIndex name _ _ _ | .assignProperty name _ _ _ => (context.scopes.get? name).isSome
  | _ => True

/-- A round of a loop with a condition begins in a state. -/
inductive WhileRound (condition : Action Value) (body : Action Flow) :
    Nat → Context → Context → Prop where
  | first {rounds : Nat} {context : Context} :
      WhileRound condition body (rounds + 1) context context
  | next {rounds : Nat} {value : Value} {flow : Flow} {before middle after last : Context} :
      condition before = .ok value middle → value.truthy = true → body middle = .ok flow after →
      flow.afterRound = none → WhileRound condition body rounds after last →
      WhileRound condition body (rounds + 1) before last

/-- A round of a loop over a range begins with a counter in a state. -/
inductive RangeRound (name : String) (bound step : Float) (body : Action Flow) :
    Nat → Float → Context → Float → Context → Prop where
  | first {rounds : Nat} {counter : Float} {context : Context} :
      RangeRound name bound step body (rounds + 1) counter context counter context
  | next {rounds : Nat} {counter last : Float} {flow : Flow} {before middle after : Context} :
      inRange bound step counter = true →
      (do Action.define name (.number counter); body : Action Flow) before = .ok flow middle →
      flow.afterRound = none →
      RangeRound name bound step body rounds (counter + step) middle last after →
      RangeRound name bound step body (rounds + 1) counter before last after

def Context.pushed (context : Context) : Context :=
  { context with scopes := context.scopes.push }

def Context.bound (context : Context) (name : String) (value : Value) : Context :=
  { context with scopes := context.scopes.define name value }

def Context.entered (context : Context) : Context :=
  { context with callDepth := context.callDepth + 1, scopes := context.scopes.push }

/-- A task with one more unit of fuel executes another one in its own text. -/
inductive Needs (fuel : Nat) : Task → Context → Task → Context → Prop where
  | operand {expr : Expr} {before after : Context} {task : Task} :
      expr.Ready before → InTurn fuel (expr.operands.map .eval) before task after →
      Needs fuel (.eval expr) before task after
  | right {op : LogicalOp} {left right : Expr} {line : Nat} {value : Value}
      {before after : Context} :
      eval fuel left before = .ok value after → op.decides value = false →
      Needs fuel (.eval (.logical op left right line)) before (.eval right) after
  | value {statement : Stmt} {before after : Context} {task : Task} :
      statement.Ready before → InTurn fuel (statement.operands.map .eval) before task after →
      Needs fuel (.exec statement) before task after
  | branch {condition : Expr} {yes : List Stmt} {no : Option (List Stmt)} {line : Nat}
      {value : Value} {before middle after : Context} {task : Task} :
      eval fuel condition before = .ok value middle →
      InTurn fuel ((if value.truthy then yes else no.getD []).map .exec) middle task after →
      Needs fuel (.exec (.branch condition yes no line)) before task after
  | condition {condition : Expr} {body : List Stmt} {line : Nat} {before after : Context} :
      WhileRound (eval fuel condition) (execBlock (exec fuel) body) fuel before.pushed after →
      Needs fuel (.exec (.loop condition body line)) before (.eval condition) after
  | round {condition : Expr} {body : List Stmt} {line : Nat} {value : Value}
      {before start middle after : Context} {task : Task} :
      WhileRound (eval fuel condition) (execBlock (exec fuel) body) fuel before.pushed start →
      eval fuel condition start = .ok value middle → value.truthy = true →
      InTurn fuel (body.map .exec) middle task after →
      Needs fuel (.exec (.loop condition body line)) before task after
  | rangeFirst {counter : String} {first bound : Expr} {step : Option Expr} {body : List Stmt}
      {line : Nat} {before : Context} :
      Needs fuel (.exec (.range counter first bound step body line)) before (.eval first) before
  | rangeBound {counter : String} {first bound : Expr} {step : Option Expr} {body : List Stmt}
      {line : Nat} {start : Float} {before after : Context} :
      evalNumber (eval fuel) first line before = .ok start after →
      Needs fuel (.exec (.range counter first bound step body line)) before (.eval bound) after
  | rangeStep {counter : String} {first bound step : Expr} {body : List Stmt} {line : Nat}
      {start stop : Float} {before middle after : Context} :
      evalNumber (eval fuel) first line before = .ok start middle →
      evalNumber (eval fuel) bound line middle = .ok stop after →
      Needs fuel (.exec (.range counter first bound (some step) body line)) before (.eval step)
        after
  | rangeRound {counter : String} {first bound : Expr} {step : Option Expr} {body : List Stmt}
      {line : Nat} {start stop width count : Float} {before second third fourth last after : Context}
      {task : Task} :
      evalNumber (eval fuel) first line before = .ok start second →
      evalNumber (eval fuel) bound line second = .ok stop third →
      evalStep (eval fuel) step line third = .ok width fourth →
      RangeRound counter stop width (execBlock (exec fuel) body) fuel start fourth.pushed count
        last →
      inRange stop width count = true →
      InTurn fuel (body.map .exec) (last.bound counter (.number count)) task after →
      Needs fuel (.exec (.range counter first bound step body line)) before task after
  | attempt {body handler : List Stmt} {errorName : String} {line : Nat} {before after : Context}
      {task : Task} :
      InTurn fuel (body.map .exec) before task after →
      Needs fuel (.exec (.attempt body errorName handler line)) before task after
  | handler {body handler : List Stmt} {errorName : String} {line : Nat} {raised : Fault}
      {before middle after : Context} {task : Task} :
      execBlock (exec fuel) body before = .fault raised middle →
      InTurn fuel (handler.map .exec) (middle.pushed.bound errorName (.text raised.message)) task
        after →
      Needs fuel (.exec (.attempt body errorName handler line)) before task after

section

variable {exec : Executor} {function : Function} {values : List Value} {context : Context}

theorem callFunction_of_miscount (line : Nat)
    (hcount : values.length ≠ function.parameters.length) :
    callFunction exec function values line context =
      .fault ⟨.argumentCount function.name (.exactly function.parameters.length) values.length,
        line⟩ context :=
  if_pos hcount

/-- As many bodies are running as may run, so the call is refused. -/
theorem callFunction_of_full (line : Nat) (hcount : values.length = function.parameters.length)
    (hdepth : context.config.maxCallDepth ≤ context.callDepth) :
    callFunction exec function values line context =
      .fault ⟨.callDepthExceeded context.config.maxCallDepth, line⟩ context := by
  simp only [callFunction, ne_eq, hcount, not_true_eq_false, if_false, hdepth, if_true]

theorem callFunction_of_room (line : Nat) (hcount : values.length = function.parameters.length)
    (hdepth : context.callDepth < context.config.maxCallDepth) :
    callFunction exec function values line context = runBody exec function values context := by
  have hroom : ¬context.config.maxCallDepth ≤ context.callDepth := Nat.not_le.mpr hdepth
  simp only [callFunction, ne_eq, hcount, not_true_eq_false, if_false, hroom]

end

/-- A call with one more unit of fuel executes a task of the body of its function. -/
inductive Enters (fuel : Nat) : Task → Context → Task → Context → Prop where
  | body {name : String} {arguments : List Expr} {line : Nat} {function : Function}
      {values : List Value} {before middle start after : Context} {task : Task} :
      Builtin.ofName? name = none → before.functions.get? name = some function →
      evalAll (eval fuel) arguments before = .ok values middle →
      values.length = function.parameters.length →
      middle.callDepth < middle.config.maxCallDepth →
      defineAll (function.parameters.zip values) middle.entered = .ok () start →
      InTurn fuel (function.body.map .exec) start task after →
      Enters fuel (.eval (.call name arguments line)) before task after

/-- A task leads to another one, which is executed with so much fuel in a state while so many more
function bodies are running. -/
inductive Leads : Nat → Task → Context → Nat → Nat → Task → Context → Prop where
  | refl {fuel : Nat} {task : Task} {context : Context} : Leads fuel task context 0 fuel task context
  | needs {fuel bodies fuel' : Nat} {task next task' : Task} {before middle after : Context} :
      Needs fuel task before next middle → Leads fuel next middle bodies fuel' task' after →
      Leads (fuel + 1) task before bodies fuel' task' after
  | enters {fuel bodies fuel' : Nat} {task next task' : Task} {before middle after : Context} :
      Enters fuel task before next middle → Leads fuel next middle bodies fuel' task' after →
      Leads (fuel + 1) task before (bodies + 1) fuel' task' after

/-- A task is executed in the run of a program. -/
def Program.Executes (program : Program) (fuel : Nat) (start : Context) (bodies fuel' : Nat)
    (task : Task) (context : Context) : Prop :=
  ∃ first before, InTurn fuel (program.map .exec) start first before ∧
    Leads fuel first before bodies fuel' task context

/-- A fault is raised in the run of a program, whether or not it is handled: a task that is
executed ends in it, or the program as a whole. -/
def Program.Raises (program : Program) (fuel : Nat) (start : Context) (raised : Fault) : Prop :=
  (∃ after, program.evaluate fuel start = .fault raised after) ∨
    ∃ bodies fuel' task context after, program.Executes fuel start bodies fuel' task context ∧
      task.action fuel' context = .fault raised after

theorem Leads.then_needs
    {fuel bodies fuel' : Nat} {task last next : Task} {before after context : Context}
    (h : Leads fuel task before bodies (fuel' + 1) last after)
    (hnext : Needs fuel' last after next context) :
    Leads fuel task before bodies fuel' next context := by
  generalize hfuel : fuel' + 1 = left at h
  induction h with
  | refl =>
      subst hfuel
      exact .needs hnext .refl
  | needs hneeds _ ih => exact .needs hneeds (ih hnext hfuel)
  | enters henters _ ih => exact .enters henters (ih hnext hfuel)

theorem InTurn.of_fault
    {fuel : Nat} {block : List Stmt} {raised : Fault} {before after : Context}
    (h : execBlock (exec fuel) block before = .fault raised after) :
    ∃ task context, InTurn fuel (block.map .exec) before task context ∧
      task.action fuel context = .fault raised after := by
  induction block generalizing before with
  | nil => cases h
  | cons statement rest ih =>
      unfold execBlock at h
      rw [Action.bind_apply] at h
      cases hfirst : exec fuel statement before with
      | ok flow middle =>
          rw [hfirst] at h
          cases flow with
          | normal =>
              obtain ⟨task, context, hturn, hfault⟩ := ih h
              exact ⟨task, context, .later hfirst hturn, hfault⟩
          | _ => cases h
      | fault other middle =>
          rw [hfirst] at h
          cases h
          exact ⟨.exec statement, before, .first, hfirst⟩
      | fatal =>
          rw [hfirst] at h
          cases h
      | outOfFuel =>
          rw [hfirst] at h
          cases h

/-- A fault that a handler takes has been raised in the run. -/
theorem Program.raises_of_handled
    {program : Program} {fuel bodies fuel' : Nat} {start context after : Context} {raised : Fault}
    {body handler : List Stmt} {errorName : String} {line : Nat}
    (h : program.Executes fuel start bodies (fuel' + 1)
      (.exec (.attempt body errorName handler line)) context)
    (hbody : execBlock (exec fuel') body context = .fault raised after) :
    program.Raises fuel start raised := by
  obtain ⟨first, before, hturn, hleads⟩ := h
  obtain ⟨task, inner, hinner, hfault⟩ := InTurn.of_fault hbody
  have htask : program.Executes fuel start bodies fuel' task inner :=
    ⟨first, before, hturn, hleads.then_needs (.attempt hinner)⟩
  exact .inr ⟨bodies, fuel', task, inner, after, htask, hfault⟩

namespace Action

variable {α : Type} {keeps : Context → Prop} {faults : Fault → Prop} {post : α → Prop}
  {action : Action α}

theorem Keeps.of_ok
    (h : Keeps keeps faults post action) {before after : Context} {value : α}
    (hbefore : keeps before) (hok : action before = .ok value after) : keeps after ∧ post value := by
  have hends := h before hbefore
  rw [hok] at hends
  exact hends

theorem Keeps.of_fault
    (h : Keeps keeps faults post action) {before after : Context} {raised : Fault}
    (hbefore : keeps before) (hfault : action before = .fault raised after) :
    keeps after ∧ faults raised := by
  have hends := h before hbefore
  rw [hfault] at hends
  exact hends

end Action

open Action

section

variable {keeps : Context → Prop} {faults : Fault → Prop} {fuel : Nat}

theorem InTurn.preserves
    {tasks : List Task} {task : Task} {before after : Context} {post : Flow → Prop}
    (h : InTurn fuel tasks before task after)
    (htasks : ∀ task ∈ tasks, Keeps keeps faults post (task.action fuel)) (hbefore : keeps before) :
    task ∈ tasks ∧ keeps after := by
  induction h with
  | first => exact ⟨List.mem_cons_self, hbefore⟩
  | later hfirst _ ih =>
      have hmiddle := (htasks _ List.mem_cons_self).of_ok hbefore hfirst
      obtain ⟨hmem, hafter⟩ :=
        ih (fun task htask => htasks task (List.mem_cons_of_mem _ htask)) hmiddle.1
      exact ⟨List.mem_cons_of_mem _ hmem, hafter⟩

theorem WhileRound.preserves
    {condition : Action Value} {body : Action Flow} {rounds : Nat} {before after : Context}
    {post : Flow → Prop} (h : WhileRound condition body rounds before after)
    (hcondition : Keeps keeps faults (fun _ => True) condition)
    (hbody : Keeps keeps faults post body) (hbefore : keeps before) : keeps after := by
  induction h with
  | first => exact hbefore
  | next hvalue _ hflow _ _ ih =>
      have hmiddle := hcondition.of_ok hbefore hvalue
      exact ih (hbody.of_ok hmiddle.1 hflow).1

theorem RangeRound.preserves
    {name : String} {bound step : Float} {body : Action Flow} {rounds : Nat}
    {counter last : Float} {before after : Context} {post : Flow → Prop}
    (h : RangeRound name bound step body rounds counter before last after)
    (hdefine : ∀ counter, Keeps keeps faults (fun _ => True) (define name (.number counter)))
    (hbody : Keeps keeps faults post body) (hbefore : keeps before) : keeps after := by
  induction h with
  | first => exact hbefore
  | @next _ counter _ _ _ _ _ _ hflow _ _ ih =>
      have hround := (hdefine counter).bind fun _ _ => hbody
      exact ih (hround.of_ok hbefore hflow).1

/-- The statements that a task executes itself are among those that are allowed. -/
def Task.Allowed (allowed : Stmt → Prop) : Task → Prop
  | eval _ => True
  | exec statement => allowed statement

variable {allowed : Stmt → Prop}
  (heval : ∀ expr, Keeps keeps faults (fun _ => True) (eval fuel expr))
  (hexec : ∀ statement, allowed statement →
    Keeps keeps faults (fun _ => True) (exec fuel statement))

include heval hexec

theorem keeps_action {task : Task} (htask : task.Allowed allowed) :
    Keeps keeps faults (fun _ => True) (task.action fuel) := by
  cases task with
  | eval expr => exact (heval expr).bind fun _ _ => keeps_pure trivial
  | exec statement => exact hexec statement htask

theorem InTurn.of_exprs
    {exprs : List Expr} {task : Task} {before after : Context}
    (h : InTurn fuel (exprs.map .eval) before task after) (hbefore : keeps before) :
    task.Allowed allowed ∧ keeps after := by
  have hallowed : ∀ task ∈ exprs.map Task.eval, task.Allowed allowed := by
    intro task htask
    obtain ⟨expr, -, rfl⟩ := List.mem_map.mp htask
    trivial
  obtain ⟨hmem, hafter⟩ := h.preserves (fun task htask =>
    keeps_action heval hexec (hallowed task htask)) hbefore
  exact ⟨hallowed task hmem, hafter⟩

theorem InTurn.of_block
    {block : List Stmt} {task : Task} {before after : Context}
    (h : InTurn fuel (block.map .exec) before task after)
    (hblock : ∀ statement ∈ block, allowed statement) (hbefore : keeps before) :
    task.Allowed allowed ∧ keeps after := by
  have hallowed : ∀ task ∈ block.map Task.exec, task.Allowed allowed := by
    intro task htask
    obtain ⟨statement, hstatement, rfl⟩ := List.mem_map.mp htask
    exact hblock statement hstatement
  obtain ⟨hmem, hafter⟩ := h.preserves (fun task htask =>
    keeps_action heval hexec (hallowed task htask)) hbefore
  exact ⟨hallowed task hmem, hafter⟩

/-- A task in the text of an allowed one is allowed, and it begins in a state of the invariant. -/
theorem Needs.preserves
    {task next : Task} {before after : Context} (h : Needs fuel task before next after)
    (hfaults : ∀ {line : Nat} {raised : Fault}, raised.ArisesAt line → faults raised)
    (hpush : ∀ context, keeps context → keeps context.pushed)
    (hbind : ∀ context name value, value.address? = none → keeps context →
      keeps (context.bound name value))
    (hparts : ∀ statement region inner, allowed statement → (region, inner) ∈ statement.blocks →
      region ≠ .function → ∀ other ∈ inner, allowed other)
    (htask : task.Allowed allowed) (hbefore : keeps before) :
    next.Allowed allowed ∧ keeps after := by
  have hblock : ∀ block, (∀ statement ∈ block, allowed statement) →
      Keeps keeps faults (fun _ => True) (execBlock (exec fuel) block) :=
    fun block hblock => keeps_execBlock block
      (fun statement hstatement => hexec statement (hblock statement hstatement)) trivial
  have hdefine : ∀ name counter,
      Keeps keeps faults (fun _ => True) (define name (.number counter)) :=
    fun name counter => keeps_modify fun context hcontext => hbind context name _ rfl hcontext
  cases h with
  | operand _ hturn => exact hturn.of_exprs heval hexec hbefore
  | right hleft _ => exact ⟨trivial, ((heval _).of_ok hbefore hleft).1⟩
  | value _ hturn => exact hturn.of_exprs heval hexec hbefore
  | @branch condition yes no line value _ _ _ _ hcondition hturn =>
      refine hturn.of_block heval hexec ?_ ((heval _).of_ok hbefore hcondition).1
      by_cases htruthy : value.truthy = true
      · rw [if_pos htruthy]
        exact hparts _ .branch yes htask (by simp [Stmt.blocks]) Region.noConfusion
      · rw [if_neg htruthy]
        exact hparts _ .branch (no.getD []) htask (by simp [Stmt.blocks]) Region.noConfusion
  | @condition condition body line _ _ hround =>
      have hbody := hparts _ .loop body htask (by simp [Stmt.blocks]) Region.noConfusion
      exact ⟨trivial, hround.preserves (heval _) (hblock _ hbody) (hpush _ hbefore)⟩
  | @round condition body line _ _ _ _ _ _ hround hcondition _ hturn =>
      have hbody := hparts _ .loop body htask (by simp [Stmt.blocks]) Region.noConfusion
      have hstart := hround.preserves (heval _) (hblock _ hbody) (hpush _ hbefore)
      exact hturn.of_block heval hexec hbody ((heval _).of_ok hstart hcondition).1
  | rangeFirst => exact ⟨trivial, hbefore⟩
  | rangeBound hfirst =>
      exact ⟨trivial, ((keeps_evalNumber heval hfaults _ _).of_ok hbefore hfirst).1⟩
  | rangeStep hfirst hbound =>
      have hmiddle := ((keeps_evalNumber heval hfaults _ _).of_ok hbefore hfirst).1
      exact ⟨trivial, ((keeps_evalNumber heval hfaults _ _).of_ok hmiddle hbound).1⟩
  | @rangeRound counter _ _ _ body line _ _ _ _ _ _ _ _ _ _ _ hfirst hbound hstep hround _ hturn =>
      have hbody := hparts _ .loop body htask (by simp [Stmt.blocks]) Region.noConfusion
      have hsecond := ((keeps_evalNumber heval hfaults _ _).of_ok hbefore hfirst).1
      have hthird := ((keeps_evalNumber heval hfaults _ _).of_ok hsecond hbound).1
      have hfourth := ((keeps_evalStep heval hfaults _ _).of_ok hthird hstep).1
      have hlast := hround.preserves (hdefine counter) (hblock _ hbody) (hpush _ hfourth)
      exact hturn.of_block heval hexec hbody (hbind _ _ _ rfl hlast)
  | @attempt body handler errorName line _ _ _ hturn =>
      have hbody := hparts _ .attempt body htask (by simp [Stmt.blocks]) Region.noConfusion
      exact hturn.of_block heval hexec hbody hbefore
  | @handler body handler errorName line _ _ _ _ _ hfault hturn =>
      have hbody := hparts _ .attempt body htask (by simp [Stmt.blocks]) Region.noConfusion
      have hhandler := hparts _ .handler handler htask (by simp [Stmt.blocks]) Region.noConfusion
      have hmiddle := ((hblock _ hbody).of_fault hbefore hfault).1
      exact hturn.of_block heval hexec hhandler (hbind _ _ _ rfl (hpush _ hmiddle))

end

end Bhasha
