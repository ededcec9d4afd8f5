import Bhasha.Proofs.Run.FatalRules
import Bhasha.Proofs.Run.ScopeDiscipline

/-!
# The depth of calls

The depth of calls goes up by one when the body of a function is opened and down by one when it is
left, whichever way.  So in every state it is the number of the bodies that are running, which is
the number of calls that lead from the program to that state.  A call finds its depth after its
arguments have been evaluated, and it is refused exactly if as many bodies are running as may run.
-/

namespace Bhasha

/-- An action ends in the state, well or in a fault. -/
def Outcome.LeavesIn {α : Type} (outcome : Outcome α) (after : Context) : Prop :=
  (∃ value, outcome = .ok value after) ∨ ∃ raised, outcome = .fault raised after

/-- A call with one more unit of fuel opens the body of its function, whose parameters are still to
be bound to the values of the arguments. -/
inductive Opens (fuel : Nat) : Expr → Context → Function → List Value → Context → Prop where
  | body {name : String} {arguments : List Expr} {line : Nat} {function : Function}
      {values : List Value} {before middle : Context} :
      Builtin.ofName? name = none → before.functions.get? name = some function →
      evalAll (eval fuel) arguments before = .ok values middle →
      values.length = function.parameters.length →
      middle.callDepth < middle.config.maxCallDepth →
      Opens fuel (.call name arguments line) before function values middle.entered

/-- The run of a program comes to a state while so many function bodies are running: it begins or
ends there, an expression or a statement of it does, or a body is being entered or left. -/
inductive Program.Visits (program : Program) (fuel : Nat) (start : Context) :
    Nat → Context → Prop where
  | starts : Visits program fuel start 0 start
  | begins {bodies fuel' : Nat} {task : Task} {context : Context} :
      program.Executes fuel start bodies fuel' task context →
      Visits program fuel start bodies context
  | ends {bodies fuel' : Nat} {task : Task} {context after : Context} :
      program.Executes fuel start bodies fuel' task context →
      (task.action fuel' context).LeavesIn after → Visits program fuel start bodies after
  | enters {bodies fuel' : Nat} {call : Expr} {context opened after : Context}
      {function : Function} {values : List Value} {bound : List (String × Value)} :
      program.Executes fuel start bodies (fuel' + 1) (.eval call) context →
      Opens fuel' call context function values opened →
      bound <+: function.parameters.zip values → defineAll bound opened = .ok () after →
      Visits program fuel start (bodies + 1) after
  | leaves {bodies fuel' : Nat} {call : Expr} {context opened inner after : Context}
      {function : Function} {values : List Value} :
      program.Executes fuel start bodies (fuel' + 1) (.eval call) context →
      Opens fuel' call context function values opened →
      defineAll (function.parameters.zip values) opened = .ok () inner →
      (execBlock (exec fuel') function.body inner).LeavesIn after →
      Visits program fuel start (bodies + 1) after
  | finishes {after : Context} :
      (program.evaluate fuel start).LeavesIn after → Visits program fuel start 0 after

/-- The state is at the depth, under the configuration. -/
def AtDepth (depth : Nat) (config : Config) (context : Context) : Prop :=
  context.callDepth = depth ∧ context.config = config

open Action

variable {α : Type} {fuel fuel' bodies level : Nat} {config : Config} {program : Program}
  {before after start context : Context} {task next : Task} {action : Action α}

theorem Action.Declares.keeps_depth {declared : String → Prop} (h : Declares declared action) :
    Keeps (AtDepth level config) (fun _ => True) (fun _ => True) action := by
  intro context hcontext
  have hgrows {after : Context} (hafter : Grows declared context after) :
      AtDepth level config after ∧ True :=
    ⟨⟨hafter.callDepth.trans hcontext.1, hafter.config.trans hcontext.2⟩, trivial⟩
  exact (h context).mono (fun _ _ hafter => hgrows hafter) (fun _ _ hafter => hgrows hafter)

theorem keeps_depth (fuel level : Nat) (config : Config) :
    (∀ expr, Keeps (AtDepth level config) (fun _ => True) (fun _ => True) (eval fuel expr)) ∧
      ∀ statement, Keeps (AtDepth level config) (fun _ => True) (fun _ => True)
        (exec fuel statement) := by
  obtain ⟨heval, hexec⟩ := declares_eval_exec fuel
  exact ⟨fun expr => (heval expr).keeps_depth, fun statement => (hexec statement).keeps_depth⟩

theorem Task.allowed_any (task : Task) : task.Allowed fun _ => True := by
  cases task <;> trivial

theorem keeps_depth_action (task : Task) :
    Keeps (AtDepth level config) (fun _ => True) (fun _ => True) (task.action fuel) := by
  obtain ⟨heval, hexec⟩ := keeps_depth fuel level config
  exact keeps_action heval (fun statement _ => hexec statement) task.allowed_any

theorem keeps_depth_execBlock (block : List Stmt) :
    Keeps (AtDepth level config) (fun _ => True) (fun _ => True) (execBlock (exec fuel) block) :=
  keeps_execBlock block (fun statement _ => (keeps_depth fuel level config).2 statement) trivial

theorem Action.Keeps.of_leavesIn {keeps : Context → Prop} {post : α → Prop}
    (h : Keeps keeps (fun _ => True) post action) (hbefore : keeps before)
    (hafter : (action before).LeavesIn after) : keeps after := by
  rcases hafter with ⟨value, hok⟩ | ⟨raised, hfault⟩
  · exact (h.of_ok hbefore hok).1
  · exact (h.of_fault hbefore hfault).1

/-- A task begins at the depth of the one in whose text it stands. -/
theorem Needs.atDepth (h : Needs fuel task before next after)
    (hbefore : AtDepth level config before) : AtDepth level config after := by
  obtain ⟨heval, hexec⟩ := keeps_depth fuel level config
  exact (h.preserves heval (fun statement _ => hexec statement) (fun _ => trivial) (fun _ h => h)
    (fun _ _ _ _ h => h) (fun _ _ _ _ _ _ _ _ => trivial) task.allowed_any hbefore).2

/-- A body is opened one level deeper, which the configuration allows. -/
theorem Opens.atDepth {call : Expr} {function : Function} {values : List Value} {opened : Context}
    (h : Opens fuel call before function values opened) (hbefore : AtDepth level config before) :
    AtDepth (level + 1) config opened ∧ level + 1 ≤ config.maxCallDepth := by
  obtain ⟨-, -, harguments, -, hroom⟩ := h
  have hmiddle := ((keeps_evalAll (keeps_depth fuel level config).1 _).of_ok hbefore harguments).1
  rw [hmiddle.1, hmiddle.2] at hroom
  exact ⟨⟨congrArg (· + 1) hmiddle.1, hmiddle.2⟩, hroom⟩

theorem keeps_depth_defineAll (bindings : List (String × Value)) :
    Keeps (AtDepth level config) (fun _ => True) (fun _ => True) (defineAll bindings) :=
  (declares_defineAll bindings).keeps_depth

theorem Enters.exists_opens (h : Enters fuel task before next after) :
    ∃ call function values opened inner, task = .eval call ∧
      Opens fuel call before function values opened ∧
      defineAll (function.parameters.zip values) opened = .ok () inner ∧
      InTurn fuel (function.body.map .exec) inner next after := by
  cases h with
  | body hname hfunction harguments hcount hroom hdefine hturn =>
      exact ⟨_, _, _, _, _, rfl, .body hname hfunction harguments hcount hroom, hdefine, hturn⟩

theorem Enters.atDepth (h : Enters fuel task before next after)
    (hbefore : AtDepth level config before) :
    AtDepth (level + 1) config after ∧ level + 1 ≤ config.maxCallDepth := by
  obtain ⟨call, function, values, opened, inner, -, hopens, hdefine, hturn⟩ := h.exists_opens
  obtain ⟨hopened, hlevel⟩ := hopens.atDepth hbefore
  have hinner := ((keeps_depth_defineAll _).of_ok hopened hdefine).1
  obtain ⟨heval, hexec⟩ := keeps_depth fuel (level + 1) config
  have hafter := hturn.of_block heval (fun statement _ => hexec statement)
    (fun _ _ => trivial) hinner
  exact ⟨hafter.2, hlevel⟩

/-- Each body that is entered on the way adds one to the depth. -/
theorem Leads.atDepth {found : Task} (h : Leads fuel task before bodies fuel' found after)
    (hbefore : AtDepth level config before) (hlevel : level ≤ config.maxCallDepth) :
    AtDepth (level + bodies) config after ∧ level + bodies ≤ config.maxCallDepth := by
  induction h generalizing level with
  | refl => exact ⟨hbefore, hlevel⟩
  | needs hneeds _ ih => exact ih (hneeds.atDepth hbefore) hlevel
  | @enters _ bodies _ _ _ _ _ _ _ henters _ ih =>
      obtain ⟨hmiddle, hdeeper⟩ := henters.atDepth hbefore
      rw [Nat.add_comm bodies 1, ← Nat.add_assoc]
      exact ih hmiddle hdeeper

theorem Program.Executes.atDepth (h : program.Executes fuel start bodies fuel' task context)
    (hstart : AtDepth 0 config start) :
    AtDepth bodies config context ∧ bodies ≤ config.maxCallDepth := by
  obtain ⟨first, before, hturn, hleads⟩ := h
  obtain ⟨heval, hexec⟩ := keeps_depth fuel 0 config
  have hbefore := hturn.of_block heval (fun statement _ => hexec statement)
    (fun _ _ => trivial) hstart
  have hdepth := hleads.atDepth hbefore.2 (Nat.zero_le _)
  rwa [Nat.zero_add] at hdepth

theorem keeps_depth_evaluate (program : Program) :
    Keeps (AtDepth level config) (fun _ => True) (fun _ => True) (program.evaluate fuel) := by
  refine (keeps_depth_execBlock program).bind fun flow _ => ?_
  cases flow with
  | normal => exact fun context hcontext => ⟨hcontext, trivial⟩
  | _ => exact keeps_raise trivial

/-- The depth is the number of bodies that are running, whatever the state. -/
theorem Program.Visits.atDepth (h : program.Visits fuel start bodies context)
    (hstart : AtDepth 0 config start) :
    AtDepth bodies config context ∧ bodies ≤ config.maxCallDepth := by
  cases h with
  | starts => exact ⟨hstart, Nat.zero_le _⟩
  | begins hexecutes => exact hexecutes.atDepth hstart
  | ends hexecutes hends =>
      obtain ⟨hcontext, hbodies⟩ := hexecutes.atDepth hstart
      exact ⟨(keeps_depth_action _).of_leavesIn hcontext hends, hbodies⟩
  | enters hexecutes hopens _ hdefine =>
      obtain ⟨hopened, hbodies⟩ := hopens.atDepth (hexecutes.atDepth hstart).1
      exact ⟨((keeps_depth_defineAll _).of_ok hopened hdefine).1, hbodies⟩
  | leaves hexecutes hopens hdefine hends =>
      obtain ⟨hopened, hbodies⟩ := hopens.atDepth (hexecutes.atDepth hstart).1
      have hinner := ((keeps_depth_defineAll _).of_ok hopened hdefine).1
      exact ⟨(keeps_depth_execBlock _).of_leavesIn hinner hends, hbodies⟩
  | finishes hends => exact ⟨(keeps_depth_evaluate _).of_leavesIn hstart hends, Nat.zero_le _⟩

section

variable {name : String} {arguments : List Expr} {line : Nat} {function : Function}
  {values : List Value} {middle : Context}

variable (hname : Builtin.ofName? name = none)
  (hfunction : before.functions.get? name = some function)
  (harguments : evalAll (eval fuel) arguments before = .ok values middle)
  (hcount : values.length = function.parameters.length)

include hname hfunction harguments hcount

end

end Bhasha
