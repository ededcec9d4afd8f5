import Bhasha.Proofs.Run.SideBySide

/-!
# Programs in step

Whatever a run does next depends on the program, on the values in the state and on the bindings
that are visible, but on no line.  So a program and its image under an exchange of lines stay in
step, layer by layer: if the expressions and statements inside a tree are in step with their
images, then so is the tree.
-/

namespace Bhasha

open Action Outcome

variable {label : Nat → Nat} {alike : Nat → Scopes → Scopes → Prop}

theorem Flow.afterRound_relabel (label : Nat → Nat) (flow : Flow) :
    (flow.relabel label).afterRound = flow.afterRound.map (·.relabel label) := by
  cases flow <;> rfl

theorem inStep_toResult (flow : Flow) :
    InStep label alike id flow.toResult (flow.relabel label).toResult := by
  cases flow with
  | normal => exact inStep_pure Value.null
  | returned value line => exact inStep_pure value
  | broke line => exact inStep_raise .breakOutsideLoop line
  | continued line => exact inStep_raise .continueOutsideLoop line

theorem inStep_finish (flow : Flow) :
    InStep label alike id flow.finish (flow.relabel label).finish := by
  cases flow with
  | normal =>
      intro depth left right hstart
      have houtput := hstart.output
      unfold Flow.finish
      simp only [Flow.relabel, houtput]
      exact .ok { hstart with output := rfl }
  | broke line => exact inStep_raise .breakOutsideLoop line
  | continued line => exact inStep_raise .continueOutsideLoop line
  | returned value line => exact inStep_raise .returnOutsideFunction line

section

variable {condition condition' : Action Value} {body body' : Action Flow}

/-- After a round of a loop both runs go on, or both end with the loop. -/
theorem matches_afterRound {flow : Flow} {depth : Nat} {left right : Context}
    {next next' : Context → Outcome Flow} (hend : SideBySide label (alike depth) left right)
    (hnext : (next left).Matches label (alike depth) (·.relabel label) (next' right)) :
    Matches label (alike depth) (·.relabel label)
      (match flow.afterRound with
        | none => next left
        | some last => .ok last left)
      (match (flow.relabel label).afterRound with
        | none => next' right
        | some last => .ok last right) := by
  rw [Flow.afterRound_relabel]
  cases flow.afterRound with
  | none => exact hnext
  | some last => exact .ok hend

theorem inStep_whileRounds (hcondition : InStep label alike id condition condition')
    (hbody : InStep label alike (·.relabel label) body body') (rounds : Nat) :
    InStep label alike (·.relabel label) (whileRounds condition body rounds)
      (whileRounds condition' body' rounds) := by
  induction rounds with
  | zero => exact fun _ _ _ _ => .outOfFuel
  | succ rounds ih =>
      intro depth left right hstart
      have hvalue := hcondition depth left right hstart
      unfold whileRounds
      generalize condition left = leftEnd at hvalue ⊢
      generalize condition' right = rightEnd at hvalue ⊢
      cases hvalue with
      | @ok value middle middle' hmiddle =>
          by_cases htruthy : value.truthy = true
          · simp only [id_eq, htruthy, if_true]
            have hround := hbody depth _ _ hmiddle
            generalize body middle = leftRound at hround ⊢
            generalize body' middle' = rightRound at hround ⊢
            cases hround with
            | ok hend => exact matches_afterRound hend (ih depth _ _ hend)
            | fault hend => exact .fault hend
            | fatal => exact .fatal
            | outOfFuel => exact .outOfFuel
          · simp only [id_eq, htruthy]
            exact .ok hmiddle
      | fault hend => exact .fault hend
      | fatal => exact .fatal
      | outOfFuel => exact .outOfFuel

theorem inStep_rangeRounds (halike : KeepsAlike alike)
    (hbody : InStep label alike (·.relabel label) body body') (name : String) (bound step : Float)
    (rounds : Nat) (counter : Float) :
    InStep label alike (·.relabel label) (rangeRounds name bound step body rounds counter)
      (rangeRounds name bound step body' rounds counter) := by
  induction rounds generalizing counter with
  | zero => exact fun _ _ _ _ => .outOfFuel
  | succ rounds ih =>
      intro depth left right hstart
      have hdefine : InStep label alike id (Action.define name (.number counter))
          (Action.define name (.number counter)) :=
        inStep_define halike name _
      have hboth : InStep label alike (·.relabel label)
          (do Action.define name (.number counter); body)
          (do Action.define name (.number counter); body') :=
        hdefine.bind fun _ => hbody
      have hround := hboth depth left right hstart
      unfold rangeRounds
      by_cases hin : inRange bound step counter = true
      · simp only [hin, if_true]
        generalize (do Action.define name (.number counter); body : Action Flow) left = leftEnd
          at hround ⊢
        generalize (do Action.define name (.number counter); body' : Action Flow) right = rightEnd
          at hround ⊢
        cases hround with
        | ok hend => exact matches_afterRound hend (ih _ depth _ _ hend)
        | fault hend => exact .fault hend
        | fatal => exact .fatal
        | outOfFuel => exact .outOfFuel
      · simp only [hin]
        exact .ok hstart

end

section

variable {eval eval' : Evaluator} {exec exec' : Executor}

section

variable (heval : ∀ expr, InStep label alike id (eval expr) (eval' (expr.relabel label)))

include heval

theorem inStep_evalAll (exprs : List Expr) :
    InStep label alike id (evalAll eval exprs) (evalAll eval' (Expr.relabelAll label exprs)) := by
  induction exprs with
  | nil => exact inStep_pure []
  | cons expr rest ih =>
      exact (heval expr).bind fun value => ih.bind fun values => inStep_pure _

theorem inStep_evalEntries (fields : Table Value) (entries : List (String × Expr)) :
    InStep label alike id (evalEntries eval fields entries)
      (evalEntries eval' fields (Expr.relabelEntries label entries)) := by
  induction entries generalizing fields with
  | nil => exact inStep_pure fields
  | cons entry rest ih => exact (heval entry.2).bind fun value => ih _

theorem inStep_evalNumber (expr : Expr) (line : Nat) :
    InStep label alike id (evalNumber eval expr line)
      (evalNumber eval' (expr.relabel label) (label line)) :=
  (heval expr).bind fun value => inStep_ofExcept (relabels_asNumber value)

theorem inStep_evalStep (step : Option Expr) (line : Nat) :
    InStep label alike id (evalStep eval step line)
      (evalStep eval' (Expr.relabelOption label step) (label line)) := by
  cases step with
  | none => exact inStep_pure _
  | some expr => exact inStep_evalNumber heval expr line

theorem inStep_evalReturned (value : Option Expr) :
    InStep label alike id (evalReturned eval value)
      (evalReturned eval' (Expr.relabelOption label value)) := by
  cases value with
  | none => exact inStep_pure _
  | some expr => exact heval expr

end

section

variable (hexec : ∀ statement,
  InStep label alike (·.relabel label) (exec statement) (exec' (statement.relabel label)))

include hexec

theorem inStep_execBlock (block : List Stmt) :
    InStep label alike (·.relabel label) (execBlock exec block)
      (execBlock exec' (Stmt.relabelBlock label block)) := by
  induction block with
  | nil => exact inStep_pure Flow.normal
  | cons statement rest ih =>
      refine (hexec statement).bind fun flow => ?_
      cases flow with
      | normal => exact ih
      | broke line => exact inStep_pure (Flow.broke line)
      | continued line => exact inStep_pure (Flow.continued line)
      | returned value line => exact inStep_pure (Flow.returned value line)

variable (halike : KeepsAlike alike)

include halike

theorem inStep_runBody (function : Function) (arguments : List Value) :
    InStep label alike id (runBody exec function arguments)
      (runBody exec' (function.relabel label) arguments) := by
  have hbindings : InStep label alike id (defineAll (function.parameters.zip arguments))
      (defineAll (function.parameters.zip arguments)) :=
    inStep_defineAll halike _
  have hbody : InStep label alike (·.relabel label)
      (do defineAll (function.parameters.zip arguments); execBlock exec function.body)
      (do
        defineAll (function.parameters.zip arguments)
        execBlock exec' (Stmt.relabelBlock label function.body)) :=
    hbindings.bind fun _ => inStep_execBlock hexec function.body
  exact ((hbody.withScope halike).deeper).bind inStep_toResult

theorem inStep_callFunction (function : Function) (arguments : List Value) (line : Nat) :
    InStep label alike id (callFunction exec function arguments line)
      (callFunction exec' (function.relabel label) arguments (label line)) := by
  intro depth left right hstart
  have hbody := inStep_runBody hexec halike function arguments depth left right hstart
  unfold callFunction
  simp only [hstart.config, hstart.callDepth, Function.relabel]
  split
  · exact .fault hstart
  split
  · exact .fault hstart
  · exact hbody

variable (heval : ∀ expr, InStep label alike id (eval expr) (eval' (expr.relabel label)))

include heval

theorem inStep_evalCall (name : String) (arguments : List Expr) (line : Nat) :
    InStep label alike id (evalCall eval exec name arguments line)
      (evalCall eval' exec' name (Expr.relabelAll label arguments) (label line)) := by
  have harguments := inStep_evalAll heval arguments
  unfold evalCall
  cases Builtin.ofName? name with
  | some builtin => exact harguments.bind fun values => inStep_callBuiltin builtin values line
  | none =>
      refine (inStep_findFunction name line).bind fun function => ?_
      exact harguments.bind fun values => inStep_callFunction hexec halike function values line

theorem inStep_evalWith (expr : Expr) :
    InStep label alike id (evalWith eval exec expr)
      (evalWith eval' exec' (expr.relabel label)) := by
  cases expr with
  | literal value line => exact inStep_pure _
  | var name line => exact inStep_lookup halike name line
  | unary op operand line =>
      exact (heval operand).bind fun value => inStep_ofExcept (op.relabels_apply value)
  | binary op left right line =>
      refine (heval left).bind fun leftValue => (heval right).bind fun rightValue => ?_
      exact inStep_reading fun store => op.relabels_apply store leftValue rightValue
  | logical op left right line =>
      refine (heval left).bind fun value => ?_
      by_cases hdecides : op.decides value = true
      · simp only [id_eq, hdecides, if_true]
        exact inStep_pure value
      · simp only [id_eq, hdecides]
        exact heval right
  | list elements line =>
      exact (inStep_evalAll heval elements).bind fun values => inStep_newList _
  | record entries line =>
      exact (inStep_evalEntries heval .empty entries).bind fun fields => inStep_newRecord _
  | index target position line =>
      refine (heval target).bind fun targetValue => (heval position).bind fun place => ?_
      exact inStep_reading fun store => targetValue.relabels_readIndex store place
  | property target name line =>
      refine (heval target).bind fun targetValue => ?_
      exact inStep_reading fun store => targetValue.relabels_readProperty store name
  | call name arguments line => exact inStep_evalCall hexec halike heval name arguments line

omit hexec heval halike in
/-- A statement that writes goes on normally. -/
theorem inStep_writingStatement {first second : Store → Except Halt Effect}
    (h : ∀ store, HaltRelabels label (first store) (second store)) :
    InStep label alike (·.relabel label)
      (writing fun store => (first store).map fun effect => (Flow.normal, effect))
      (writing fun store => (second store).map fun effect => (Flow.normal, effect)) := by
  refine inStep_writing (fun store => (h store).map _) ?_
  intro store result hresult
  cases hfirst : first store with
  | ok effect =>
      rw [hfirst] at hresult
      cases hresult
      rfl
  | error halt =>
      rw [hfirst] at hresult
      cases hresult

omit hexec heval halike in
theorem inStep_normal :
    InStep label alike (·.relabel label) (pure Flow.normal) (pure Flow.normal) :=
  inStep_pure Flow.normal

theorem inStep_execWith (rounds : Nat) (statement : Stmt) :
    InStep label alike (·.relabel label) (execWith eval exec rounds statement)
      (execWith eval' exec' rounds (statement.relabel label)) := by
  cases statement with
  | declare name value line =>
      refine (heval value).bind fun written => ?_
      exact (inStep_define halike name written).bind fun _ => inStep_normal
  | print value line =>
      exact (heval value).bind fun printed => (inStep_print printed).bind fun _ => inStep_normal
  | assign name value line =>
      refine (heval value).bind fun written => ?_
      exact (inStep_assign halike name written line).bind fun _ => inStep_normal
  | assignIndex name position value line =>
      refine (inStep_lookup halike name line).bind fun target => ?_
      refine (heval position).bind fun index => (heval value).bind fun written => ?_
      exact inStep_writingStatement fun store =>
        target.haltRelabels_writeIndex store index written
  | assignProperty name property value line =>
      refine (inStep_lookup halike name line).bind fun target => ?_
      refine (heval value).bind fun written => ?_
      exact inStep_writingStatement fun _ =>
        target.haltRelabels_writeProperty property written
  | branch condition yes no line =>
      refine (heval condition).bind fun value => ?_
      by_cases htruthy : value.truthy = true
      · simp only [id_eq, htruthy, if_true]
        exact inStep_execBlock hexec yes
      · simp only [id_eq, htruthy, Stmt.relabelOption_getD]
        exact inStep_execBlock hexec (no.getD [])
  | loop condition body line =>
      have hrounds := inStep_whileRounds (heval condition) (inStep_execBlock hexec body) rounds
      exact hrounds.withScope halike
  | range counter first bound step body line =>
      refine (inStep_evalNumber heval first line).bind fun start => ?_
      refine (inStep_evalNumber heval bound line).bind fun stop => ?_
      refine (inStep_evalStep heval step line).bind fun width => ?_
      have hrounds := inStep_rangeRounds halike (inStep_execBlock hexec body) counter stop width
        rounds start
      exact hrounds.withScope halike
  | define name parameters body line =>
      exact (inStep_addFunction name ⟨name, parameters, body, line⟩).bind fun _ => inStep_normal
  | giveBack value line =>
      exact (inStep_evalReturned heval value).bind fun returned =>
        inStep_pure (Flow.returned returned line)
  | leave line => exact inStep_pure (Flow.broke line)
  | proceed line => exact inStep_pure (Flow.continued line)
  | attempt body errorName handler line =>
      refine (inStep_execBlock hexec body).handling fun raised => InStep.withScope halike ?_
      exact (inStep_define halike errorName _).bind fun _ => inStep_execBlock hexec handler
  | expression value line => exact (heval value).bind fun _ => inStep_normal

end

end

theorem inStep_eval_exec (halike : KeepsAlike alike) (fuel : Nat) :
    (∀ expr, InStep label alike id (eval fuel expr) (eval fuel (expr.relabel label))) ∧
    ∀ statement,
      InStep label alike (·.relabel label) (exec fuel statement)
        (exec fuel (statement.relabel label)) := by
  induction fuel with
  | zero => exact ⟨fun _ _ _ _ _ => .outOfFuel, fun _ _ _ _ _ => .outOfFuel⟩
  | succ fuel ih =>
      obtain ⟨heval, hexec⟩ := ih
      exact ⟨inStep_evalWith hexec halike heval, inStep_execWith hexec halike heval fuel⟩

/-- A program and its image under an exchange of lines stay in step. -/
theorem inStep_evaluate (halike : KeepsAlike alike) (program : Program) (fuel : Nat) :
    InStep label alike id (program.evaluate fuel) ((program.relabel label).evaluate fuel) :=
  (inStep_execBlock (inStep_eval_exec halike fuel).2 program).bind inStep_finish

end Bhasha
