import Bhasha.Proofs.Program.Places
import Bhasha.Proofs.Run.Activation
import Bhasha.Proofs.Run.Invariant

/-!
# Control stays where the program keeps it

A transfer of control starts at a statement of the program and travels outwards.  It cannot leave
a loop or the body of a function other than as its text says, so a fault that reports a transfer
out of place names the line of a statement that stands out of place in the program, and loops do
not pass on the transfers that are meant for them.
-/

namespace Bhasha

def Anywhere (_ : Region) : Prop :=
  True

def OutsideLoops (region : Region) : Prop :=
  region ≠ .loop ∧ region ≠ .function

def OutsideFunctions (region : Region) : Prop :=
  region ≠ .function

/-- The body of a function that a program defines somewhere. -/
def FunctionBody (program : Program) (body : List Stmt) : Prop :=
  ∃ name parameters line, Occurs Anywhere (.define name parameters body line) program

/-- A statement that leaves a loop stands on the line outside every loop of the function around
it, or of the program if there is none. -/
def StrayLeave (program : Program) (line : Nat) : Prop :=
  ∃ body, (body = program ∨ FunctionBody program body) ∧ Occurs OutsideLoops (.leave line) body

/-- A statement that goes on with a loop stands on the line outside every loop of the function
around it, or of the program if there is none. -/
def StrayProceed (program : Program) (line : Nat) : Prop :=
  ∃ body, (body = program ∨ FunctionBody program body) ∧ Occurs OutsideLoops (.proceed line) body

/-- A return stands on the line outside every function. -/
def StrayReturn (program : Program) (line : Nat) : Prop :=
  ∃ value, Occurs OutsideFunctions (.giveBack value line) program

/-- A fault that reports a transfer of control is explained by a statement of the program. -/
structure Explained (program : Program) (raised : Fault) : Prop where
  leave : raised.cause = .breakOutsideLoop → StrayLeave program raised.line
  proceed : raised.cause = .continueOutsideLoop → StrayProceed program raised.line
  giveBack : raised.cause = .returnOutsideFunction → StrayReturn program raised.line

/-- A flow out of a block starts at a statement of the block. -/
def Flow.StartsIn (block : List Stmt) : Flow → Prop
  | normal => True
  | broke line => Occurs OutsideLoops (.leave line) block
  | continued line => Occurs OutsideLoops (.proceed line) block
  | returned _ line => ∃ value, Occurs OutsideFunctions (.giveBack value line) block

/-- All functions that have been defined are functions of the program. -/
def KnownFunctions (program : Program) (context : Context) : Prop :=
  ∀ name function, context.functions.get? name = some function →
    FunctionBody program function.body

variable {program : Program}

theorem explained_of_isControl {raised : Fault} (h : raised.cause.isControl = false) :
    Explained program raised := by
  constructor <;> intro hcause <;> rw [hcause] at h <;> cases h

theorem explained_callDepth (limit line : Nat) :
    Explained program ⟨.callDepthExceeded limit, line⟩ := by
  constructor <;> intro hcause <;> cases hcause

theorem stable_knownFunctions (program : Program) :
    Stable (KnownFunctions program) (Explained program) := by
  constructor
  · intro context store hcontext
    exact hcontext
  · intro context output hcontext
    exact hcontext
  · intro context random hcontext
    exact hcontext
  · intro line raised hraised
    exact explained_of_isControl hraised.2

namespace Flow

theorem StartsIn.of_subset
    {block wider : List Stmt} {flow : Flow} (h : flow.StartsIn block)
    (hsubset : ∀ statement ∈ block, statement ∈ wider) : flow.StartsIn wider := by
  cases flow with
  | normal => trivial
  | broke line => exact Occurs.of_subset h hsubset
  | continued line => exact Occurs.of_subset h hsubset
  | returned value line =>
      obtain ⟨returned, hoccurs⟩ := h
      exact ⟨returned, hoccurs.of_subset hsubset⟩

theorem StartsIn.of_mem
    {block : List Stmt} {statement : Stmt} {flow : Flow} (h : flow.StartsIn [statement])
    (hstatement : statement ∈ block) : flow.StartsIn block := by
  apply h.of_subset
  intro other hother
  rw [List.mem_singleton.mp hother]
  exact hstatement

theorem StartsIn.of_block
    {inner : List Stmt} {statement : Stmt} {region : Region} {flow : Flow}
    (h : flow.StartsIn inner) (hblock : (region, inner) ∈ statement.blocks)
    (hregion : OutsideLoops region) : flow.StartsIn [statement] := by
  cases flow with
  | normal => trivial
  | broke line => exact Occurs.of_block h hblock hregion
  | continued line => exact Occurs.of_block h hblock hregion
  | returned value line =>
      obtain ⟨returned, hoccurs⟩ := h
      exact ⟨returned, hoccurs.of_block hblock hregion.2⟩

/-- The flow with which a loop ends is one out of the loop, and not one that is meant for it. -/
theorem StartsIn.afterRound
    {inner : List Stmt} {statement : Stmt} {flow last : Flow} (h : flow.StartsIn inner)
    (hlast : flow.afterRound = some last) (hblock : (.loop, inner) ∈ statement.blocks) :
    last.StartsIn [statement] := by
  cases flow with
  | normal => cases hlast
  | broke line =>
      cases hlast
      trivial
  | continued line => cases hlast
  | returned value line =>
      cases hlast
      obtain ⟨returned, hoccurs⟩ := h
      exact ⟨returned, hoccurs.of_block hblock Region.noConfusion⟩

end Flow

open Action

section

variable {eval : Evaluator} {exec : Executor}
  (hexec : ∀ statement, Occurs Anywhere statement program →
    Keeps (KnownFunctions program) (Explained program) (·.StartsIn [statement]) (exec statement))

include hexec

theorem controlled_execBlock
    (block : List Stmt) (hblock : ∀ statement ∈ block, Occurs Anywhere statement program) :
    Keeps (KnownFunctions program) (Explained program) (·.StartsIn block)
      (execBlock exec block) := by
  refine keeps_execBlock block (fun statement hstatement => ?_) trivial
  exact (hexec statement (hblock statement hstatement)).mono fun flow hflow =>
    hflow.of_mem hstatement

omit hexec in
theorem occurs_of_block
    {statement : Stmt} (hstatement : Occurs Anywhere statement program) {region : Region}
    {inner : List Stmt} (hblock : (region, inner) ∈ statement.blocks) :
    ∀ other ∈ inner, Occurs Anywhere other program := by
  intro other hother
  exact hstatement.trans (Occurs.of_block (.here hother) hblock trivial)

omit hexec in
theorem occurs_of_functionBody {body : List Stmt} (h : FunctionBody program body) :
    ∀ statement ∈ body, Occurs Anywhere statement program := by
  obtain ⟨name, parameters, line, hdefine⟩ := h
  exact occurs_of_block hdefine (List.mem_singleton_self _)

omit hexec in
theorem controlled_define (name : String) (value : Value) :
    Keeps (KnownFunctions program) (Explained program) (fun _ => True) (define name value) :=
  keeps_modify fun _ hcontext => hcontext

omit hexec in
theorem controlled_assign (name : String) (value : Value) (line : Nat) :
    Keeps (KnownFunctions program) (Explained program) (fun _ => True)
      (assign name value line) := by
  intro context hcontext
  unfold assign
  cases context.scopes.assign? name value with
  | some scopes => exact ⟨hcontext, trivial⟩
  | none => exact ⟨hcontext, explained_of_isControl rfl⟩

omit hexec in
theorem controlled_defineAll (bindings : List (String × Value)) :
    Keeps (KnownFunctions program) (Explained program) (fun _ => True) (defineAll bindings) := by
  induction bindings with
  | nil => exact keeps_pure trivial
  | cons binding rest ih => exact (controlled_define binding.1 binding.2).bind fun _ _ => ih

omit hexec in
theorem Keeps.inScope
    {α : Type} {post : α → Prop} {body : Action α}
    (h : Keeps (KnownFunctions program) (Explained program) post body) :
    Keeps (KnownFunctions program) (Explained program) post (withScope body) :=
  Keeps.withScope (fun _ hcontext => hcontext) (fun _ hcontext => hcontext) h

omit hexec in
theorem Keeps.deeper
    {α : Type} {post : α → Prop} {body : Action α}
    (h : Keeps (KnownFunctions program) (Explained program) post body) :
    Keeps (KnownFunctions program) (Explained program) post (deeper body) := by
  intro context hcontext
  apply ends_deeper
  exact (h { context with callDepth := context.callDepth + 1 } hcontext).mono (fun _ _ h => h)
    (fun _ _ h => h)

theorem controlled_callFunction
    (function : Function) (arguments : List Value) (line : Nat)
    (hfunction : FunctionBody program function.body) :
    Keeps (KnownFunctions program) (Explained program) (fun _ => True)
      (callFunction exec function arguments line) := by
  have hblock := controlled_execBlock hexec function.body (occurs_of_functionBody hfunction)
  have hbindings : Keeps (KnownFunctions program) (Explained program) (fun _ => True)
      (defineAll (function.parameters.zip arguments)) :=
    controlled_defineAll _
  have hbody := hbindings.bind fun _ _ => hblock
  have hrun : Keeps (KnownFunctions program) (Explained program) (fun _ => True)
      (runBody exec function arguments) := by
    refine Keeps.bind (Keeps.deeper (Keeps.inScope hbody)) fun flow hflow => ?_
    -- A transfer that reaches the end of the body is raised, and it starts out of place in there.
    cases flow with
    | normal => exact keeps_pure trivial
    | returned value line => exact keeps_pure trivial
    | broke line =>
        apply keeps_raise
        refine ⟨fun _ => ⟨_, .inr hfunction, hflow⟩, ?_, ?_⟩ <;> intro hcause <;> cases hcause
    | continued line =>
        apply keeps_raise
        refine ⟨?_, fun _ => ⟨_, .inr hfunction, hflow⟩, ?_⟩ <;> intro hcause <;> cases hcause
  intro context hcontext
  unfold callFunction
  simp only
  split
  · exact ⟨hcontext, explained_of_isControl rfl⟩
  split
  · exact ⟨hcontext, explained_callDepth _ _⟩
  · exact hrun context hcontext

variable (heval : ∀ expr, Keeps (KnownFunctions program) (Explained program) (fun _ => True)
  (eval expr))

include heval

theorem controlled_evalWith (expr : Expr) :
    Keeps (KnownFunctions program) (Explained program) (fun _ => True)
      (evalWith eval exec expr) :=
  (stable_knownFunctions program).steady.keeps_evalWith heval
    (fun _ name function hcontext hget => hcontext name function hget)
    (fun function arguments line hfunction =>
      controlled_callFunction hexec function arguments line hfunction) expr

theorem controlled_execWith
    (rounds : Nat) (statement : Stmt) (hstatement : Occurs Anywhere statement program) :
    Keeps (KnownFunctions program) (Explained program) (·.StartsIn [statement])
      (execWith eval exec rounds statement) := by
  have hsteady := (stable_knownFunctions program).steady
  have hblock : ∀ region inner, (region, inner) ∈ statement.blocks →
      Keeps (KnownFunctions program) (Explained program) (·.StartsIn inner)
        (execBlock exec inner) :=
    fun region inner hinner => controlled_execBlock hexec inner (occurs_of_block hstatement hinner)
  cases statement with
  | declare name value line =>
      refine (heval value).bind fun written _ => ?_
      exact (controlled_define name written).bind fun _ _ => keeps_pure trivial
  | print value line =>
      refine (heval value).bind fun printed _ => ?_
      exact (hsteady.keeps_print printed).bind fun _ _ => keeps_pure trivial
  | assign name value line =>
      refine (heval value).bind fun written _ => ?_
      exact (controlled_assign name written line).bind fun _ _ => keeps_pure trivial
  | assignIndex name position value line =>
      refine (hsteady.keeps_lookup name line).bind fun target _ => ?_
      refine (heval position).bind fun index _ => (heval value).bind fun written _ => ?_
      exact hsteady.keeps_writingStatement
        (fun store => target.haltsAt_writeIndex store index written) trivial
  | assignProperty name property value line =>
      refine (hsteady.keeps_lookup name line).bind fun target _ => ?_
      refine (heval value).bind fun written _ => ?_
      exact hsteady.keeps_writingStatement
        (fun _ => target.haltsAt_writeProperty property written) trivial
  | branch condition yes no line =>
      have houtside : OutsideLoops .branch := ⟨by decide, by decide⟩
      refine (heval condition).bind fun value _ => ?_
      by_cases htruthy : value.truthy = true
      · rw [if_pos htruthy]
        have hyes : (.branch, yes) ∈ (Stmt.branch condition yes no line).blocks := by
          simp [Stmt.blocks]
        exact (hblock _ _ hyes).mono fun flow hflow => hflow.of_block hyes houtside
      · rw [if_neg htruthy]
        have hno : (.branch, no.getD []) ∈ (Stmt.branch condition yes no line).blocks := by
          simp [Stmt.blocks]
        exact (hblock _ _ hno).mono fun flow hflow => hflow.of_block hno houtside
  | loop condition body line =>
      have hbody : (.loop, body) ∈ (Stmt.loop condition body line).blocks := by
        simp [Stmt.blocks]
      have hrounds := keeps_whileRounds (heval condition) (hblock _ _ hbody) trivial
        (fun flow last hflow hlast => hflow.afterRound hlast hbody) rounds
      exact Keeps.inScope hrounds
  | range counter first bound step body line =>
      have hbody : (.loop, body) ∈ (Stmt.range counter first bound step body line).blocks := by
        simp [Stmt.blocks]
      refine (keeps_evalNumber heval hsteady.faults first line).bind fun start _ => ?_
      refine (keeps_evalNumber heval hsteady.faults bound line).bind fun stop _ => ?_
      refine (keeps_evalStep heval hsteady.faults step line).bind fun width _ => ?_
      refine Keeps.inScope (keeps_rangeRounds (fun _ => controlled_define _ _) (hblock _ _ hbody)
        trivial ?_ rounds start)
      exact fun flow last hflow hlast => hflow.afterRound hlast hbody
  | define name parameters body line =>
      refine Keeps.bind (keeps_modify ?_) fun _ _ => keeps_pure trivial
      intro context hcontext other function hget
      rw [Table.get?_insert] at hget
      by_cases hname : other = name
      · rw [if_pos hname] at hget
        cases hget
        exact ⟨name, parameters, line, hstatement⟩
      · rw [if_neg hname] at hget
        exact hcontext other function hget
  | giveBack value line =>
      refine (keeps_evalReturned heval value).bind fun returned _ => keeps_pure ?_
      exact ⟨value, .here (List.mem_singleton_self _)⟩
  | leave line => exact keeps_pure (.here (List.mem_singleton_self _))
  | proceed line => exact keeps_pure (.here (List.mem_singleton_self _))
  | attempt body errorName handler line =>
      have hbody : (.attempt, body) ∈ (Stmt.attempt body errorName handler line).blocks := by
        simp [Stmt.blocks]
      have hhandler : (.handler, handler) ∈ (Stmt.attempt body errorName handler line).blocks := by
        simp [Stmt.blocks]
      have hattempt := (hblock _ _ hbody).mono fun flow hflow =>
        hflow.of_block hbody ⟨by decide, by decide⟩
      refine hattempt.handling fun raised => Keeps.inScope ?_
      refine (controlled_define errorName _).bind fun _ _ => ?_
      exact (hblock _ _ hhandler).mono fun flow hflow =>
        hflow.of_block hhandler ⟨by decide, by decide⟩
  | expression value line => exact (heval value).bind fun _ _ => keeps_pure trivial

end

theorem controlled (program : Program) (fuel : Nat) :
    (∀ expr, Keeps (KnownFunctions program) (Explained program) (fun _ => True)
      (eval fuel expr)) ∧
    ∀ statement, Occurs Anywhere statement program →
      Keeps (KnownFunctions program) (Explained program) (·.StartsIn [statement])
        (exec fuel statement) := by
  induction fuel with
  | zero => exact ⟨fun _ _ _ => trivial, fun _ _ _ _ => trivial⟩
  | succ fuel ih =>
      obtain ⟨heval, hexec⟩ := ih
      exact ⟨controlled_evalWith hexec heval, controlled_execWith hexec heval fuel⟩

theorem controlled_enters
    {fuel : Nat} {task next : Task} {before after : Context}
    (h : Enters fuel task before next after) (hbefore : KnownFunctions program before) :
    next.Allowed (Occurs Anywhere · program) ∧ KnownFunctions program after := by
  obtain ⟨heval, hexec⟩ := controlled program fuel
  cases h with
  | body _ hfunction harguments _ _ hstart hturn =>
      have hbody := hbefore _ _ hfunction
      have hmiddle := ((keeps_evalAll heval _).of_ok hbefore harguments).1
      have hinner : KnownFunctions program (Context.entered _) := hmiddle
      have hentered := ((controlled_defineAll _).of_ok hinner hstart).1
      exact hturn.of_block heval
        (fun statement hstatement => (hexec statement hstatement).mono fun _ _ => trivial)
        (occurs_of_functionBody hbody) hentered

theorem controlled_leads
    {fuel bodies fuel' : Nat} {task found : Task} {before after : Context}
    (h : Leads fuel task before bodies fuel' found after)
    (htask : task.Allowed (Occurs Anywhere · program)) (hbefore : KnownFunctions program before) :
    found.Allowed (Occurs Anywhere · program) ∧ KnownFunctions program after := by
  induction h with
  | refl => exact ⟨htask, hbefore⟩
  | @needs fuel _ _ _ _ _ _ _ _ hneeds _ ih =>
      obtain ⟨heval, hexec⟩ := controlled program fuel
      have hnext := hneeds.preserves heval
        (fun statement hstatement => (hexec statement hstatement).mono fun _ _ => trivial)
        (stable_knownFunctions program).faults (fun _ h => h) (fun _ _ _ _ h => h)
        (fun statement region inner hstatement hinner _ => occurs_of_block hstatement hinner)
        htask hbefore
      exact ih hnext.1 hnext.2
  | enters henters _ ih =>
      have hnext := controlled_enters henters hbefore
      exact ih hnext.1 hnext.2

theorem controlled_executes
    {fuel bodies fuel' : Nat} {task : Task} {start context : Context}
    (h : program.Executes fuel start bodies fuel' task context)
    (hstart : KnownFunctions program start) :
    task.Allowed (Occurs Anywhere · program) ∧ KnownFunctions program context := by
  obtain ⟨first, before, hturn, hleads⟩ := h
  obtain ⟨heval, hexec⟩ := controlled program fuel
  have hfirst := hturn.of_block heval
    (fun statement hstatement => (hexec statement hstatement).mono fun _ _ => trivial)
    (fun statement hstatement => .here hstatement) hstart
  exact controlled_leads hleads hfirst.1 hfirst.2

theorem controlled_evaluate (program : Program) (fuel : Nat) :
    Keeps (KnownFunctions program) (Explained program) (fun _ => True)
      (program.evaluate fuel) := by
  have hblock := controlled_execBlock (controlled program fuel).2 program
    (fun statement hstatement => .here hstatement)
  refine hblock.bind fun flow hflow => ?_
  cases flow with
  | normal => exact fun context hcontext => ⟨hcontext, trivial⟩
  | broke line =>
      apply keeps_raise
      refine ⟨fun _ => ⟨_, .inl rfl, hflow⟩, ?_, ?_⟩ <;> intro hcause <;> cases hcause
  | continued line =>
      apply keeps_raise
      refine ⟨?_, fun _ => ⟨_, .inl rfl, hflow⟩, ?_⟩ <;> intro hcause <;> cases hcause
  | returned value line =>
      apply keeps_raise
      refine ⟨?_, ?_, fun _ => hflow⟩ <;> intro hcause <;> cases hcause

theorem explained_of_raises
    {fuel : Nat} {start : Context} {raised : Fault} (h : program.Raises fuel start raised)
    (hstart : KnownFunctions program start) : Explained program raised := by
  rcases h with ⟨after, hfault⟩ | ⟨bodies, fuel', task, context, after, hexecutes, hfault⟩
  · exact ((controlled_evaluate program fuel).of_fault hstart hfault).2
  · obtain ⟨heval, hexec⟩ := controlled program fuel'
    obtain ⟨htask, hcontext⟩ := controlled_executes hexecutes hstart
    have haction := keeps_action heval
      (fun statement hstatement => (hexec statement hstatement).mono fun _ _ => trivial) htask
    exact (haction.of_fault hcontext hfault).2

def Flow.LeavesLoops : Flow → Prop
  | normal | returned _ _ => True
  | broke _ | continued _ => False

theorem leavesLoops_afterRound {flow last : Flow} (h : flow.afterRound = some last) :
    last.LeavesLoops := by
  cases flow with
  | normal => cases h
  | broke line =>
      cases h
      trivial
  | continued line => cases h
  | returned value line =>
      cases h
      trivial

/-- In whatever state it begins, no loop passes on a transfer of control that is meant for it. -/
theorem leavesLoops_of_exec
    {fuel : Nat} {statement : Stmt} {context after : Context} {flow : Flow}
    (hloop : ∃ body, statement.blocks = [(.loop, body)])
    (h : exec fuel statement context = .ok flow after) : flow.LeavesLoops := by
  have hany : ∀ {α : Type} (action : Action α),
      Keeps (fun _ => True) (fun _ => True) (fun _ => True) action := by
    intro α action before _
    cases action before with
    | ok value after => exact ⟨trivial, trivial⟩
    | fault raised after => exact ⟨trivial, trivial⟩
    | fatal => trivial
    | outOfFuel => trivial
  have hkeeps : Keeps (fun _ => True) (fun _ => True) Flow.LeavesLoops (exec fuel statement) := by
    obtain ⟨body, hbody⟩ := hloop
    cases fuel with
    | zero => exact fun _ _ => trivial
    | succ fuel =>
        rw [exec_succ]
        cases statement with
        | loop condition inner line =>
            refine Keeps.withScope (fun _ h => h) (fun _ h => h) ?_
            exact keeps_whileRounds (hany _) (hany _) trivial
              (fun flow last _ hlast => leavesLoops_afterRound hlast) fuel
        | range counter first bound step inner line =>
            refine (hany _).bind fun start _ => (hany _).bind fun stop _ => ?_
            refine (hany _).bind fun width _ => Keeps.withScope (fun _ h => h) (fun _ h => h) ?_
            exact keeps_rangeRounds (fun _ => hany _) (hany _) trivial
              (fun flow last _ hlast => leavesLoops_afterRound hlast) fuel start
        | _ => simp [Stmt.blocks] at hbody
  exact (hkeeps.of_ok trivial h).2

/-- A fault that reports a transfer of control out of place, wherever it is raised in a run, has
the line of a statement that stands out of place in the program.  So a program without such
statements raises none, and a loop never passes on a transfer of control that is meant for it. -/
theorem Program.transfers_of_control
    (program : Program) (fuel : Nat) (config : Config) (random : RandomSource) :
    (∀ raised, program.Raises fuel { config := config, random := random } raised →
      (raised.cause = .breakOutsideLoop → StrayLeave program raised.line) ∧
      (raised.cause = .continueOutsideLoop → StrayProceed program raised.line) ∧
      (raised.cause = .returnOutsideFunction → StrayReturn program raised.line)) ∧
    ((∀ line, ¬StrayLeave program line ∧ ¬StrayProceed program line ∧ ¬StrayReturn program line) →
      ∀ raised, program.Raises fuel { config := config, random := random } raised →
        raised.cause ≠ .breakOutsideLoop ∧ raised.cause ≠ .continueOutsideLoop ∧
          raised.cause ≠ .returnOutsideFunction) ∧
    ∀ (fuel : Nat) (statement : Stmt) (context after : Context) (flow : Flow),
      (∃ body, statement.blocks = [(.loop, body)]) →
      exec fuel statement context = .ok flow after →
      ∀ line, flow ≠ .broke line ∧ flow ≠ .continued line := by
  have hstart : KnownFunctions program { config := config, random := random } := by
    intro name function hget
    cases hget
  refine ⟨?_, ?_, ?_⟩
  · intro raised hraised
    have hexplained := explained_of_raises hraised hstart
    exact ⟨hexplained.leave, hexplained.proceed, hexplained.giveBack⟩
  · intro hnone raised hraised
    have hexplained := explained_of_raises hraised hstart
    obtain ⟨hleave, hproceed, hreturn⟩ := hnone raised.line
    refine ⟨?_, ?_, ?_⟩
    · exact fun hcause => hleave (hexplained.leave hcause)
    · exact fun hcause => hproceed (hexplained.proceed hcause)
    · exact fun hcause => hreturn (hexplained.giveBack hcause)
  · intro fuel statement context after flow hloop h line
    have hleaves := leavesLoops_of_exec hloop h
    constructor
    · rintro rfl
      exact hleaves
    · rintro rfl
      exact hleaves

end Bhasha
