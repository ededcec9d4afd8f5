import Bhasha.Proofs.Run.CallDepth

/-!
# What holds all through a run

A property may hold wherever an expression or a statement ends if it holds where it begins.  If it
also stays when a scope is entered, when a plain value is bound and when a body is opened, then it
holds at every state that the execution comes to.
-/

namespace Bhasha

open Action

/-- The property is kept by expressions and statements, and by what happens between them.  The
parameters of a function are bound in turn. -/
structure Pervades (keeps : Context → Prop) : Prop where
  eval : ∀ (fuel : Nat) (expr : Expr),
    Keeps keeps (fun _ => True) (fun _ => True) (eval fuel expr)
  exec : ∀ (fuel : Nat) (statement : Stmt),
    Keeps keeps (fun _ => True) (fun _ => True) (exec fuel statement)
  push : ∀ {context : Context}, keeps context → keeps context.pushed
  bind : ∀ {context : Context} (name : String) (value : Value), value.address? = none →
    keeps context → keeps (context.bound name value)
  opens : ∀ {fuel : Nat} {call : Expr} {before opened after : Context} {function : Function}
    {values : List Value} {bound : List (String × Value)},
    Opens fuel call before function values opened → bound <+: function.parameters.zip values →
    defineAll bound opened = .ok () after → keeps before → keeps after
  output : ∀ {context : Context}, keeps context → keeps { context with output := #[] }

/-- The execution of a task comes to a state, in which it or a task inside it begins or ends. -/
inductive Task.Visits (fuel : Nat) (task : Task) (before : Context) : Context → Prop where
  | begins {bodies fuel' : Nat} {next : Task} {after : Context} :
      Leads fuel task before bodies fuel' next after → Visits fuel task before after
  | ends {bodies fuel' : Nat} {next : Task} {middle after : Context} :
      Leads fuel task before bodies fuel' next middle →
      (next.action fuel' middle).LeavesIn after → Visits fuel task before after

/-- The execution of a block comes to a state in one of its statements. -/
def VisitsBlock (fuel : Nat) (block : List Stmt) (before after : Context) : Prop :=
  ∃ first middle, InTurn fuel (block.map .exec) before first middle ∧
    first.Visits fuel middle after

namespace Pervades

variable {keeps : Context → Prop} {fuel fuel' bodies : Nat} {task next : Task}
  {before after start context : Context} {program : Program} (h : Pervades keeps)

include h

theorem keeps_action (fuel : Nat) (task : Task) :
    Keeps keeps (fun _ => True) (fun _ => True) (task.action fuel) :=
  Bhasha.keeps_action (h.eval fuel) (fun statement _ => h.exec fuel statement) task.allowed_any

theorem keeps_block (fuel : Nat) (block : List Stmt) :
    Keeps keeps (fun _ => True) (fun _ => True) (execBlock (Bhasha.exec fuel) block) :=
  keeps_execBlock block (fun statement _ => h.exec fuel statement) trivial

theorem keeps_evaluate (program : Program) (fuel : Nat) :
    Keeps keeps (fun _ => True) (fun _ => True) (program.evaluate fuel) := by
  refine (h.keeps_block fuel program).bind fun flow _ => ?_
  cases flow with
  | normal => exact fun _ hcontext => ⟨h.output hcontext, trivial⟩
  | _ => exact keeps_raise trivial

theorem of_inTurn {block : List Stmt} (hturn : InTurn fuel (block.map .exec) before next after)
    (hbefore : keeps before) : keeps after :=
  (hturn.of_block (h.eval fuel) (fun statement _ => h.exec fuel statement) (fun _ _ => trivial)
    hbefore).2

theorem of_needs (hneeds : Needs fuel task before next after) (hbefore : keeps before) :
    keeps after :=
  (hneeds.preserves (h.eval fuel) (fun statement _ => h.exec fuel statement) (fun _ => trivial)
    (fun _ => h.push) (fun _ name value => h.bind name value) (fun _ _ _ _ _ _ _ _ => trivial)
    task.allowed_any hbefore).2

theorem of_enters (henters : Enters fuel task before next after) (hbefore : keeps before) :
    keeps after := by
  obtain ⟨_, _, _, _, _, -, hopens, hdefine, hturn⟩ := henters.exists_opens
  exact h.of_inTurn hturn (h.opens hopens List.prefix_rfl hdefine hbefore)

theorem of_leads (hleads : Leads fuel task before bodies fuel' next after)
    (hbefore : keeps before) : keeps after := by
  induction hleads with
  | refl => exact hbefore
  | needs hneeds _ ih => exact ih (h.of_needs hneeds hbefore)
  | enters henters _ ih => exact ih (h.of_enters henters hbefore)

/-- What holds when a task begins holds at every state that its execution comes to. -/
theorem of_visits (hvisits : task.Visits fuel before after) (hbefore : keeps before) :
    keeps after := by
  cases hvisits with
  | begins hleads => exact h.of_leads hleads hbefore
  | ends hleads hends => exact (h.keeps_action _ _).of_leavesIn (h.of_leads hleads hbefore) hends

theorem of_visitsBlock {block : List Stmt} (hvisits : VisitsBlock fuel block before after)
    (hbefore : keeps before) : keeps after := by
  obtain ⟨first, middle, hturn, hvisits⟩ := hvisits
  exact h.of_visits hvisits (h.of_inTurn hturn hbefore)

theorem of_executes (hexecutes : program.Executes fuel start bodies fuel' task context)
    (hstart : keeps start) : keeps context := by
  obtain ⟨first, middle, hturn, hleads⟩ := hexecutes
  exact h.of_leads hleads (h.of_inTurn hturn hstart)

/-- What holds when a program begins holds at every state that its run comes to. -/
theorem of_run (hvisits : program.Visits fuel start bodies context) (hstart : keeps start) :
    keeps context := by
  cases hvisits with
  | starts => exact hstart
  | begins hexecutes => exact h.of_executes hexecutes hstart
  | ends hexecutes hends =>
      exact (h.keeps_action _ _).of_leavesIn (h.of_executes hexecutes hstart) hends
  | enters hexecutes hopens hbound hdefine =>
      exact h.opens hopens hbound hdefine (h.of_executes hexecutes hstart)
  | leaves hexecutes hopens hdefine hends =>
      have hinner := h.opens hopens List.prefix_rfl hdefine (h.of_executes hexecutes hstart)
      exact (h.keeps_block _ _).of_leavesIn hinner hends
  | finishes hends => exact (h.keeps_evaluate _ _).of_leavesIn hstart hends

end Pervades

end Bhasha
