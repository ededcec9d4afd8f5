import Bhasha.Proofs.Run.FatalRules
import Bhasha.Proofs.Run.Rounds

/-!
# Surplus

A run writes to the output and never looks at it, and it asks for the limit of calls only when it
makes one.  So a run may be given values that were printed before it, further calls that are
allowed, and further fuel, and it goes on like the run without them, until that one is refused a
call or is out of fuel.
-/

namespace Bhasha

variable {α β : Type}

/-- What a run has in addition to another one: values that were printed before, further calls that
are allowed, and further fuel. -/
structure Surplus where
  printed : Array Value := #[]
  calls : Nat := 0
  fuel : Nat := 0

/-- The state with a surplus. -/
def Context.plus (context : Context) (surplus : Surplus) : Context :=
  { context with
    output := surplus.printed ++ context.output
    config := { maxCallDepth := context.config.maxCallDepth + surplus.calls } }

theorem Context.plus_fuel (context : Context) (fuel : Nat) :
    context.plus { fuel := fuel } = context := by
  simp [plus]

/-- The end with a surplus in its state. -/
def Outcome.plus (outcome : Outcome α) (surplus : Surplus) : Outcome α :=
  match outcome with
  | .ok value context => .ok value (context.plus surplus)
  | .fault raised context => .fault raised (context.plus surplus)
  | .fatal => .fatal
  | .outOfFuel => .outOfFuel

theorem Outcome.plus_fuel (outcome : Outcome α) (fuel : Nat) :
    outcome.plus { fuel := fuel } = outcome := by
  cases outcome <;> simp [plus, Context.plus_fuel]

/-- The fault does not arise where further calls are allowed. -/
def Surplus.Averts (surplus : Surplus) (raised : Fault) : Prop :=
  0 < surplus.calls ∧ ∃ limit, raised.cause = .callDepthExceeded limit

namespace Action

/-- An action that does the same with a surplus as without it. -/
def Blind (action : Action α) : Prop :=
  ∀ surplus context, action (context.plus surplus) = (action context).plus surplus

/-- From the state on, the second action does with the surplus what the first one does without
it.  Nothing is asked where the first one runs out of fuel and there is further fuel, or where it
ends in a fault that the surplus averts. -/
inductive Follows (surplus : Surplus) (first second : Action α) (context : Context) : Prop where
  | outOfFuel :
      first context = .outOfFuel → 0 < surplus.fuel → Follows surplus first second context
  | averted {raised : Fault} {after : Context} :
      first context = .fault raised after → surplus.Averts raised →
      Follows surplus first second context
  | same : second (context.plus surplus) = (first context).plus surplus →
      Follows surplus first second context

variable {surplus : Surplus} {context : Context}

theorem Blind.follows {action : Action α} (h : action.Blind) :
    Follows surplus action action context :=
  .same (h surplus context)

/-- An action that is out of fuel, and is still out of fuel unless there is further fuel. -/
theorem Follows.of_no_fuel {first second : Action α} (hfirst : first context = .outOfFuel)
    (hsecond : surplus.fuel = 0 → second (context.plus surplus) = .outOfFuel) :
    Follows surplus first second context := by
  by_cases hmore : 0 < surplus.fuel
  · exact .outOfFuel hfirst hmore
  · exact .same (by rw [hfirst, hsecond (Nat.eq_zero_of_not_pos hmore)]; rfl)

theorem Follows.congr {first second first' second' : Action α}
    (h : Follows surplus first second context) (hfirst : first' context = first context)
    (hsecond : second' (context.plus surplus) = second (context.plus surplus)) :
    Follows surplus first' second' context := by
  cases h with
  | outOfFuel h hmore => exact .outOfFuel (hfirst.trans h) hmore
  | averted h haverts => exact .averted (hfirst.trans h) haverts
  | same h => exact .same (by rw [hfirst, hsecond, h])

theorem Follows.bind {first second : Action α} {next next' : α → Action β}
    (h : Follows surplus first second context)
    (hnext : ∀ value after, first context = .ok value after →
      Follows surplus (next value) (next' value) after) :
    Follows surplus (first >>= next) (second >>= next') context := by
  cases h with
  | outOfFuel h hmore => exact .outOfFuel (by rw [bind_apply, h]) hmore
  | averted h haverts => exact .averted (by rw [bind_apply, h]) haverts
  | same h =>
      cases hfirst : first context with
      | ok value after =>
          have hsecond : second (context.plus surplus) = .ok value (after.plus surplus) := by
            rw [h, hfirst]
            rfl
          have hleft : (first >>= next) context = next value after := by
            rw [bind_apply, hfirst]
          have hright : (second >>= next') (context.plus surplus) =
              next' value (after.plus surplus) := by
            rw [bind_apply, hsecond]
          cases hnext value after hfirst with
          | outOfFuel hlater hmore => exact .outOfFuel (hleft.trans hlater) hmore
          | averted hlater haverts => exact .averted (hleft.trans hlater) haverts
          | same hlater => exact .same (by rw [hleft, hright, hlater])
      | _ => exact .same (by rw [bind_apply, bind_apply, h, hfirst]; rfl)

theorem Follows.withScope {body body' : Action α}
    (h : Follows surplus body body' context.pushed) :
    Follows surplus (withScope body) (withScope body') context := by
  unfold Action.withScope
  cases h with
  | outOfFuel h hmore =>
      have hbody : body { context with scopes := context.scopes.push } = .outOfFuel := h
      exact .outOfFuel (by rw [hbody]) hmore
  | averted h haverts =>
      have hbody : body { context with scopes := context.scopes.push } = .fault _ _ := h
      exact .averted (by rw [hbody]) haverts
  | same h =>
      have hbody' : body' { context.plus surplus with
          scopes := (context.plus surplus).scopes.push } =
          (body { context with scopes := context.scopes.push }).plus surplus := h
      refine .same ?_
      rw [hbody']
      cases body { context with scopes := context.scopes.push } <;> rfl

theorem Follows.deeper {body body' : Action α}
    (h : Follows surplus body body' { context with callDepth := context.callDepth + 1 }) :
    Follows surplus (deeper body) (deeper body') context := by
  unfold Action.deeper
  cases h with
  | outOfFuel h hmore => exact .outOfFuel (by rw [h]) hmore
  | averted h haverts => exact .averted (by rw [h]) haverts
  | same h =>
      have hbody' : body' { context.plus surplus with
          callDepth := (context.plus surplus).callDepth + 1 } =
          (body { context with callDepth := context.callDepth + 1 }).plus surplus := h
      refine .same ?_
      rw [hbody']
      cases body { context with callDepth := context.callDepth + 1 } <;> rfl

/-- A handler must not take a fault that the surplus averts. -/
theorem Follows.handling {body body' : Action α} {handler handler' : Fault → Action α}
    (h : Follows surplus body body' context)
    (htaken : ∀ raised after, body context = .fault raised after → ¬surplus.Averts raised)
    (hhandler : ∀ raised after, body context = .fault raised after →
      Follows surplus (handler raised) (handler' raised) after) :
    Follows surplus (handling body handler) (handling body' handler') context := by
  cases h with
  | outOfFuel h hmore => exact .outOfFuel (by unfold Action.handling; rw [h]) hmore
  | averted h haverts => exact absurd haverts (htaken _ _ h)
  | same h =>
      cases hbody : body context with
      | fault raised after =>
          have hbody' : body' (context.plus surplus) = .fault raised (after.plus surplus) := by
            rw [h, hbody]
            rfl
          have hleft : Action.handling body handler context = handler raised after := by
            unfold Action.handling
            rw [hbody]
          have hright : Action.handling body' handler' (context.plus surplus) =
              handler' raised (after.plus surplus) := by
            unfold Action.handling
            rw [hbody']
          cases hhandler raised after hbody with
          | outOfFuel hlater hmore => exact .outOfFuel (hleft.trans hlater) hmore
          | averted hlater haverts => exact .averted (hleft.trans hlater) haverts
          | same hlater => exact .same (by rw [hleft, hright, hlater])
      | _ =>
          refine .same ?_
          unfold Action.handling
          rw [h, hbody]
          rfl

theorem blind_pure (value : α) : (pure value : Action α).Blind :=
  fun _ _ => rfl

theorem Blind.bind {first : Action α} {next : α → Action β} (h : first.Blind)
    (hnext : ∀ value, (next value).Blind) : (first >>= next).Blind := by
  intro surplus context
  rw [bind_apply, bind_apply, h]
  cases first context with
  | ok value after => exact hnext value surplus after
  | _ => rfl

theorem blind_modify {change : Context → Context}
    (h : ∀ surplus context, change (context.plus surplus) = (change context).plus surplus) :
    (modify change).Blind := by
  intro surplus context
  unfold modify
  rw [h]
  rfl

theorem blind_ofExcept (result : Except Fault α) : (ofExcept result).Blind := by
  intro surplus context
  cases result <;> rfl

theorem blind_reading (read : Store → Except Fault α) : (reading read).Blind :=
  fun surplus context => blind_ofExcept (read context.store) surplus context

theorem blind_writing (write : Store → Except Halt (α × Effect)) : (writing write).Blind := by
  intro surplus context
  have hstore : (context.plus surplus).store = context.store := rfl
  unfold writing
  rw [hstore]
  cases write context.store with
  | ok result => rfl
  | error halt => cases halt <;> rfl

theorem blind_newList (items : Array Value) : (newList items).Blind :=
  fun _ _ => rfl

theorem blind_newRecord (fields : Table Value) : (newRecord fields).Blind :=
  fun _ _ => rfl

theorem blind_define (name : String) (value : Value) : (define name value).Blind :=
  fun _ _ => rfl

theorem blind_lookup (name : String) (line : Nat) : (lookup name line).Blind := by
  intro surplus context
  have hscopes : (context.plus surplus).scopes = context.scopes := rfl
  unfold lookup
  rw [hscopes]
  cases context.scopes.get? name <;> rfl

theorem blind_assign (name : String) (value : Value) (line : Nat) :
    (assign name value line).Blind := by
  intro surplus context
  have hscopes : (context.plus surplus).scopes = context.scopes := rfl
  unfold assign
  rw [hscopes]
  cases context.scopes.assign? name value <;> rfl

theorem blind_print (value : Value) : (print value).Blind := by
  refine blind_modify fun surplus context => ?_
  have houtput : (surplus.printed ++ context.output).push value =
      surplus.printed ++ context.output.push value := by simp
  unfold Context.plus
  rw [houtput]

theorem blind_findFunction (name : String) (line : Nat) : (findFunction name line).Blind := by
  intro surplus context
  have hfunctions : (context.plus surplus).functions = context.functions := rfl
  unfold findFunction
  rw [hfunctions]
  cases context.functions.get? name <;> rfl

theorem blind_defineAll (bindings : List (String × Value)) : (defineAll bindings).Blind := by
  induction bindings with
  | nil => exact blind_pure ()
  | cons binding rest ih => exact (blind_define binding.1 binding.2).bind fun _ => ih

theorem blind_noteDraw (builtin : Builtin) : builtin.noteDraw.Blind := by
  unfold Builtin.noteDraw
  by_cases hrandom : builtin = .random
  · rw [if_pos hrandom]
    exact fun _ _ => rfl
  · rw [if_neg hrandom]
    exact blind_pure ()

theorem blind_callBuiltin (builtin : Builtin) (arguments : List Value) (line : Nat) :
    (callBuiltin builtin arguments line).Blind := by
  unfold callBuiltin
  by_cases haccepts : builtin.arity.accepts arguments.length = true
  · rw [if_pos haccepts]
    have hdraw : nextDraw.Blind := fun _ _ => rfl
    refine hdraw.bind fun draw => (blind_writing _).bind fun result => ?_
    exact (blind_noteDraw builtin).bind fun _ => blind_pure result
  · rw [if_neg haccepts]
    exact blind_ofExcept _

theorem blind_toResult (flow : Flow) : flow.toResult.Blind := by
  cases flow <;> exact fun _ _ => rfl

end Action

open Action

section

variable {condition : Action Value} {body : Action Flow}

variable {surplus : Surplus} {condition' : Action Value} {body' : Action Flow}

theorem follows_nextRound {next next' : Action Flow} {flow : Flow} {context : Context}
    (h : flow.afterRound = none → Follows surplus next next' context) :
    Follows surplus (nextRound next flow) (nextRound next' flow) context := by
  unfold nextRound
  cases hflow : flow.afterRound with
  | none => exact h hflow
  | some last => exact (blind_pure last).follows

/-- If each round that is begun goes on alike, so does the loop. -/
theorem follows_whileRounds {rounds : Nat} {before : Context}
    (hcondition : ∀ start, WhileRound condition body rounds before start →
      Follows surplus condition condition' start)
    (hbody : ∀ start value middle, WhileRound condition body rounds before start →
      condition start = .ok value middle → value.truthy = true →
      Follows surplus body body' middle) :
    Follows surplus (whileRounds condition body rounds)
      (whileRounds condition' body' (rounds + surplus.fuel)) before := by
  induction rounds generalizing before with
  | zero => exact .of_no_fuel rfl fun hnone => by rw [hnone]; rfl
  | succ rounds ih =>
      rw [Nat.add_right_comm, whileRounds_succ, whileRounds_succ]
      refine (hcondition before .first).bind fun value middle hvalue => ?_
      by_cases htruthy : value.truthy = true
      · rw [if_pos htruthy, if_pos htruthy]
        refine (hbody before value middle .first hvalue htruthy).bind fun flow after hflow => ?_
        refine follows_nextRound fun hnext => ih ?_ ?_
        · exact fun start hstart =>
            hcondition start (.next hvalue htruthy hflow hnext hstart)
        · exact fun start value' middle' hstart =>
            hbody start value' middle' (.next hvalue htruthy hflow hnext hstart)
      · rw [if_neg htruthy, if_neg htruthy]
        exact (blind_pure _).follows

theorem follows_rangeRounds {name : String} {bound step : Float} {rounds : Nat}
    {counter : Float} {before : Context}
    (hbody : ∀ count last, RangeRound name bound step body rounds counter before count last →
      inRange bound step count = true →
      Follows surplus body body' (last.bound name (.number count))) :
    Follows surplus (rangeRounds name bound step body rounds counter)
      (rangeRounds name bound step body' (rounds + surplus.fuel) counter) before := by
  induction rounds generalizing counter before with
  | zero => exact .of_no_fuel rfl fun hnone => by rw [hnone]; rfl
  | succ rounds ih =>
      rw [Nat.add_right_comm, rangeRounds_succ, rangeRounds_succ]
      by_cases hin : inRange bound step counter = true
      · rw [if_pos hin, if_pos hin]
        have hround : Follows surplus (do define name (.number counter); body : Action Flow)
            (do define name (.number counter); body' : Action Flow) before := by
          refine (blind_define name _).follows.bind fun _ after hdefine => ?_
          cases hdefine
          exact hbody counter before .first hin
        refine hround.bind fun flow after hflow => ?_
        refine follows_nextRound fun hnext => ih ?_
        exact fun count last hlast => hbody count last (.next hin hflow hnext hlast)
      · rw [if_neg hin, if_neg hin]
        exact (blind_pure _).follows

end

section

variable {surplus : Surplus} {fuel : Nat} {context : Context}

/-- From the state on, the task does with the surplus what it does without it. -/
def Task.Follows (surplus : Surplus) (fuel : Nat) (context : Context) : Task → Prop
  | eval expr =>
      Action.Follows surplus (Bhasha.eval fuel expr) (Bhasha.eval (fuel + surplus.fuel) expr)
        context
  | exec statement =>
      Action.Follows surplus (Bhasha.exec fuel statement)
        (Bhasha.exec (fuel + surplus.fuel) statement) context

theorem follows_evalAll {exprs : List Expr}
    (h : ∀ task after, InTurn fuel (exprs.map .eval) context task after →
      task.Follows surplus fuel after) :
    Follows surplus (evalAll (eval fuel) exprs) (evalAll (eval (fuel + surplus.fuel)) exprs)
      context := by
  induction exprs generalizing context with
  | nil => exact (blind_pure _).follows
  | cons expr rest ih =>
      refine Follows.bind (h _ _ .first) fun value middle hvalue => ?_
      have hrest := ih fun task after hturn =>
        h task after (.later (by rw [Task.action, bind_apply, hvalue]; rfl) hturn)
      exact hrest.bind fun values after _ => (blind_pure _).follows

theorem follows_evalEntries {fields : Table Value} {entries : List (String × Expr)}
    (h : ∀ task after, InTurn fuel ((entries.map Prod.snd).map .eval) context task after →
      task.Follows surplus fuel after) :
    Follows surplus (evalEntries (eval fuel) fields entries)
      (evalEntries (eval (fuel + surplus.fuel)) fields entries) context := by
  induction entries generalizing fields context with
  | nil => exact (blind_pure _).follows
  | cons entry rest ih =>
      refine Follows.bind (h _ _ .first) fun value middle hvalue => ih fun task after hturn => ?_
      exact h task after (.later (by rw [Task.action, bind_apply, hvalue]; rfl) hturn)

theorem follows_execBlock {block : List Stmt}
    (h : ∀ task after, InTurn fuel (block.map .exec) context task after →
      task.Follows surplus fuel after) :
    Follows surplus (execBlock (exec fuel) block)
      (execBlock (exec (fuel + surplus.fuel)) block) context := by
  induction block generalizing context with
  | nil => exact (blind_pure _).follows
  | cons statement rest ih =>
      refine Follows.bind (h _ _ .first) fun flow middle hflow => ?_
      cases flow with
      | normal => exact ih fun task after hturn => h task after (.later hflow hturn)
      | _ => exact (blind_pure _).follows

theorem follows_evalNumber {expr : Expr} (line : Nat)
    (h : (Task.eval expr).Follows surplus fuel context) :
    Follows surplus (evalNumber (eval fuel) expr line)
      (evalNumber (eval (fuel + surplus.fuel)) expr line) context :=
  Follows.bind h fun _ _ _ => (blind_ofExcept _).follows

/-- A call that is refused is averted by further calls. -/
theorem follows_callFunction {function : Function} {values : List Value} (line : Nat)
    (hbody : ∀ start task after, values.length = function.parameters.length →
      context.callDepth < context.config.maxCallDepth →
      defineAll (function.parameters.zip values) context.entered = .ok () start →
      InTurn fuel (function.body.map .exec) start task after →
      task.Follows surplus fuel after) :
    Follows surplus (callFunction (exec fuel) function values line)
      (callFunction (exec (fuel + surplus.fuel)) function values line) context := by
  by_cases hcount : values.length = function.parameters.length
  · by_cases hdepth : context.callDepth < context.config.maxCallDepth
    · have hdepth' : (context.plus surplus).callDepth <
          (context.plus surplus).config.maxCallDepth := Nat.lt_add_right _ hdepth
      have hrun : Follows surplus (runBody (exec fuel) function values)
          (runBody (exec (fuel + surplus.fuel)) function values) context := by
        refine Follows.bind (.deeper (.withScope ?_)) fun flow _ _ => (blind_toResult flow).follows
        refine (blind_defineAll _).follows.bind fun _ start hdefine => ?_
        exact follows_execBlock fun task after => hbody start task after hcount hdepth hdefine
      exact hrun.congr (callFunction_of_room line hcount hdepth)
        (callFunction_of_room line hcount hdepth')
    · have hfull := Nat.not_lt.mp hdepth
      by_cases hcalls : 0 < surplus.calls
      · exact .averted (callFunction_of_full line hcount hfull) ⟨hcalls, _, rfl⟩
      · have hnone : surplus.calls = 0 := Nat.eq_zero_of_not_pos hcalls
        have hfull' : (context.plus surplus).config.maxCallDepth ≤
            (context.plus surplus).callDepth := by
          simpa only [Context.plus, hnone, Nat.add_zero] using hfull
        refine .same ?_
        rw [callFunction_of_full line hcount hfull, callFunction_of_full line hcount hfull']
        simp only [Outcome.plus, Context.plus, hnone, Nat.add_zero]
  · refine .same ?_
    rw [callFunction_of_miscount line hcount, callFunction_of_miscount line hcount]
    rfl

theorem InTurn.second {first second : Expr} {value : Value} {before middle : Context}
    (h : eval fuel first before = .ok value middle) :
    InTurn fuel ([first, second].map .eval) before (.eval second) middle :=
  .later (action_eval_eq_ok.mpr ⟨value, h⟩) .first

/-- An expression goes on alike if all that it executes does. -/
theorem follows_eval {expr : Expr}
    (hneeds : ∀ next after, Needs fuel (.eval expr) context next after →
      next.Follows surplus fuel after)
    (henters : ∀ next after, Enters fuel (.eval expr) context next after →
      next.Follows surplus fuel after) :
    Follows surplus (eval (fuel + 1) expr) (eval (fuel + 1 + surplus.fuel) expr) context := by
  rw [Nat.add_right_comm, eval_succ, eval_succ]
  cases expr with
  | literal value line => exact (blind_pure _).follows
  | var name line => exact (blind_lookup name line).follows
  | unary op operand line =>
      refine Follows.bind (hneeds _ _ (.operand trivial .first)) fun value after _ => ?_
      exact (blind_ofExcept _).follows
  | binary op left right line =>
      refine Follows.bind (hneeds _ _ (.operand trivial .first)) fun value middle hvalue => ?_
      refine Follows.bind (hneeds _ _ (.operand trivial (.second hvalue))) fun other after _ => ?_
      exact (blind_reading _).follows
  | logical op left right line =>
      refine Follows.bind (hneeds _ _ (.operand trivial .first)) fun value middle hvalue => ?_
      by_cases hdecides : op.decides value = true
      · rw [if_pos hdecides, if_pos hdecides]
        exact (blind_pure value).follows
      · rw [if_neg hdecides, if_neg hdecides]
        exact hneeds _ _ (.right hvalue (Bool.eq_false_iff.mpr hdecides))
  | list elements line =>
      have helements := follows_evalAll fun task after hturn =>
        hneeds task after (.operand trivial hturn)
      exact helements.bind fun values after _ => (blind_newList _).follows
  | record entries line =>
      have hentries : Follows surplus (evalEntries (eval fuel) .empty entries)
          (evalEntries (eval (fuel + surplus.fuel)) .empty entries) context :=
        follows_evalEntries fun task after hturn => hneeds task after (.operand trivial hturn)
      exact hentries.bind fun fields after _ => (blind_newRecord fields).follows
  | index target position line =>
      refine Follows.bind (hneeds _ _ (.operand trivial .first)) fun value middle hvalue => ?_
      refine Follows.bind (hneeds _ _ (.operand trivial (.second hvalue))) fun other after _ => ?_
      exact (blind_reading _).follows
  | property target name line =>
      refine Follows.bind (hneeds _ _ (.operand trivial .first)) fun value after _ => ?_
      exact (blind_reading _).follows
  | call name arguments line =>
      have harguments (hready : (Expr.call name arguments line).Ready context) :
          Follows surplus (evalAll (eval fuel) arguments)
            (evalAll (eval (fuel + surplus.fuel)) arguments) context :=
        follows_evalAll fun task after hturn => hneeds task after (.operand hready hturn)
      rw [evalWith, evalWith]
      unfold evalCall
      cases hname : Builtin.ofName? name with
      | some builtin =>
          have hready : (Expr.call name arguments line).Ready context :=
            .inl (Option.isSome_of_eq_some hname)
          exact (harguments hready).bind fun values after _ => (blind_callBuiltin _ _ _).follows
      | none =>
          refine (blind_findFunction name line).follows.bind fun function same hfound => ?_
          obtain ⟨hfunction, rfl⟩ := findFunction_eq_ok.mp hfound
          have hready : (Expr.call name arguments line).Ready context :=
            .inr (Option.isSome_of_eq_some hfunction)
          refine (harguments hready).bind fun values middle hvalues => follows_callFunction line ?_
          exact fun start task after hcount hdepth hdefine hturn =>
            henters task after (.body hname hfunction hvalues hcount hdepth hdefine hturn)

theorem follows_exec {statement : Stmt}
    (hneeds : ∀ next after, Needs fuel (.exec statement) context next after →
      next.Follows surplus fuel after)
    (htaken : ∀ body errorName handler line raised after,
      statement = .attempt body errorName handler line →
      execBlock (exec fuel) body context = .fault raised after → ¬surplus.Averts raised) :
    Follows surplus (exec (fuel + 1) statement) (exec (fuel + 1 + surplus.fuel) statement)
      context := by
  rw [Nat.add_right_comm, exec_succ, exec_succ]
  cases statement with
  | declare name value line =>
      refine Follows.bind (hneeds _ _ (.value trivial .first)) fun value middle _ => ?_
      exact (blind_define name value).follows.bind fun _ _ _ => (blind_pure _).follows
  | print value line =>
      refine Follows.bind (hneeds _ _ (.value trivial .first)) fun value middle _ => ?_
      exact (blind_print value).follows.bind fun _ _ _ => (blind_pure _).follows
  | assign name value line =>
      refine Follows.bind (hneeds _ _ (.value trivial .first)) fun value middle _ => ?_
      exact (blind_assign name value line).follows.bind fun _ _ _ => (blind_pure _).follows
  | assignIndex name position value line =>
      refine (blind_lookup name line).follows.bind fun target same hfound => ?_
      obtain ⟨htarget, rfl⟩ := lookup_eq_ok.mp hfound
      have hready : (Stmt.assignIndex name position value line).Ready context :=
        Option.isSome_of_eq_some htarget
      refine Follows.bind (hneeds _ _ (.value hready .first)) fun index middle hindex => ?_
      refine Follows.bind (hneeds _ _ (.value hready (.second hindex))) fun written after _ => ?_
      exact (blind_writing _).follows
  | assignProperty name property value line =>
      refine (blind_lookup name line).follows.bind fun target same hfound => ?_
      obtain ⟨htarget, rfl⟩ := lookup_eq_ok.mp hfound
      have hready : (Stmt.assignProperty name property value line).Ready context :=
        Option.isSome_of_eq_some htarget
      refine Follows.bind (hneeds _ _ (.value hready .first)) fun written after _ => ?_
      exact (blind_writing _).follows
  | branch condition yes no line =>
      refine Follows.bind (hneeds _ _ (.value trivial .first)) fun value middle hvalue => ?_
      by_cases htruthy : value.truthy = true
      · rw [if_pos htruthy, if_pos htruthy]
        refine follows_execBlock fun task after hturn => hneeds task after (.branch hvalue ?_)
        rwa [if_pos htruthy]
      · rw [if_neg htruthy, if_neg htruthy]
        refine follows_execBlock fun task after hturn => hneeds task after (.branch hvalue ?_)
        rwa [if_neg htruthy]
  | loop condition body line =>
      refine .withScope (follows_whileRounds ?_ ?_)
      · exact fun start hstart => hneeds _ _ (.condition hstart)
      · exact fun start value middle hstart hvalue htruthy =>
          follows_execBlock fun task after hturn =>
            hneeds task after (.round hstart hvalue htruthy hturn)
  | range counter first bound step body line =>
      have hfirst := follows_evalNumber line (hneeds _ _ .rangeFirst)
      refine hfirst.bind fun start second hstart => ?_
      have hbound := follows_evalNumber line (hneeds _ _ (.rangeBound hstart))
      refine hbound.bind fun stop third hstop => ?_
      have hstep : Follows surplus (evalStep (eval fuel) step line)
          (evalStep (eval (fuel + surplus.fuel)) step line) third := by
        cases step with
        | none => exact (blind_pure _).follows
        | some step => exact follows_evalNumber line (hneeds _ _ (.rangeStep hstart hstop))
      refine hstep.bind fun width fourth hwidth => .withScope (follows_rangeRounds ?_)
      exact fun count last hlast hin => follows_execBlock fun task after hturn =>
        hneeds task after (.rangeRound hstart hstop hwidth hlast hin hturn)
  | define name parameters body line =>
      have hinsert : (modify fun context => { context with
          functions := context.functions.insert name ⟨name, parameters, body, line⟩ }).Blind :=
        blind_modify fun _ _ => rfl
      exact hinsert.follows.bind fun _ _ _ => (blind_pure _).follows
  | giveBack value line =>
      cases value with
      | none => exact (blind_pure Value.null).follows.bind fun _ _ _ => (blind_pure _).follows
      | some value =>
          refine Follows.bind (hneeds _ _ (.value trivial .first)) fun value middle _ => ?_
          exact (blind_pure _).follows
  | leave line => exact (blind_pure _).follows
  | proceed line => exact (blind_pure _).follows
  | attempt body errorName handler line =>
      have hbody : Follows surplus (execBlock (exec fuel) body)
          (execBlock (exec (fuel + surplus.fuel)) body) context :=
        follows_execBlock fun task after hturn => hneeds task after (.attempt hturn)
      refine hbody.handling ?_ fun raised middle hraised => .withScope ?_
      · exact fun raised after => htaken body errorName handler line raised after rfl
      · refine (blind_define errorName _).follows.bind fun _ start hdefine => ?_
        cases hdefine
        exact follows_execBlock fun task after hturn =>
          hneeds task after (.handler hraised hturn)
  | expression value line =>
      refine Follows.bind (hneeds _ _ (.value trivial .first)) fun value middle _ => ?_
      exact (blind_pure _).follows

/-- In the course of a task a handler takes a fault. -/
def Task.Handles (fuel : Nat) (context : Context) (raised : Fault) (task : Task) : Prop :=
  ∃ bodies left body errorName handler line before after,
    Leads fuel task context bodies (left + 1) (.exec (.attempt body errorName handler line))
      before ∧
    execBlock (Bhasha.exec left) body before = .fault raised after

theorem Task.Handles.of_needs {task next : Task} {after : Context} {raised : Fault}
    (h : next.Handles fuel after raised) (hneeds : Needs fuel task context next after) :
    task.Handles (fuel + 1) context raised := by
  obtain ⟨bodies, left, body, errorName, handler, line, before, last, hleads, hfault⟩ := h
  exact ⟨bodies, left, body, errorName, handler, line, before, last, .needs hneeds hleads, hfault⟩

theorem Task.Handles.of_enters {task next : Task} {after : Context} {raised : Fault}
    (h : next.Handles fuel after raised) (henters : Enters fuel task context next after) :
    task.Handles (fuel + 1) context raised := by
  obtain ⟨bodies, left, body, errorName, handler, line, before, last, hleads, hfault⟩ := h
  exact ⟨bodies + 1, left, body, errorName, handler, line, before, last, .enters henters hleads,
    hfault⟩

/-- A task goes on alike with the surplus unless a handler takes a fault that the surplus averts. -/
theorem Task.follows {task : Task}
    (h : ∀ raised, task.Handles fuel context raised → ¬surplus.Averts raised) :
    task.Follows surplus fuel context := by
  induction fuel generalizing task context with
  | zero => cases task <;> exact .of_no_fuel rfl fun hnone => by rw [hnone]; rfl
  | succ fuel ih =>
      have hneeds : ∀ next after, Needs fuel task context next after →
          next.Follows surplus fuel after :=
        fun next after hneeds => ih fun raised hhandles => h raised (hhandles.of_needs hneeds)
      have henters : ∀ next after, Enters fuel task context next after →
          next.Follows surplus fuel after :=
        fun next after henters => ih fun raised hhandles => h raised (hhandles.of_enters henters)
      cases task with
      | eval expr => exact follows_eval hneeds henters
      | exec statement =>
          refine follows_exec hneeds ?_
          rintro body errorName handler line raised after rfl hfault
          exact h raised ⟨0, fuel, body, errorName, handler, line, context, after, .refl, hfault⟩

/-- In the run of a program a handler takes a fault. -/
def Program.Handles (program : Program) (fuel : Nat) (start : Context) (raised : Fault) : Prop :=
  ∃ bodies left body errorName handler line before after,
    program.Executes fuel start bodies (left + 1) (.exec (.attempt body errorName handler line))
      before ∧
    execBlock (exec left) body before = .fault raised after

theorem Program.follows (program : Program)
    (h : ∀ raised, program.Handles fuel context raised → ¬surplus.Averts raised) :
    Follows surplus (execBlock (exec fuel) program)
      (execBlock (exec (fuel + surplus.fuel)) program) context := by
  refine follows_execBlock fun task after hturn => Task.follows fun raised hhandles => ?_
  obtain ⟨bodies, left, body, errorName, handler, line, before, last, hleads, hfault⟩ := hhandles
  exact h raised ⟨bodies, left, body, errorName, handler, line, before, last,
    ⟨task, after, hturn, hleads⟩, hfault⟩

/-- What was printed before is kept in front and changes nothing else. -/
theorem execBlock_plus_printed (fuel : Nat) (block : List Stmt) (context : Context)
    (printed : Array Value) :
    execBlock (exec fuel) block (context.plus { printed := printed }) =
      (execBlock (exec fuel) block context).plus { printed := printed } := by
  have hfollows : Follows { printed := printed } (execBlock (exec fuel) block)
      (execBlock (exec fuel) block) context :=
    Program.follows block fun _ _ haverts => Nat.lt_irrefl 0 haverts.1
  cases hfollows with
  | outOfFuel _ hmore => exact absurd hmore (Nat.lt_irrefl 0)
  | averted _ haverts => exact absurd haverts.1 (Nat.lt_irrefl 0)
  | same h => exact h

/-- An end within the fuel is the end with any more of it. -/
theorem execBlock_of_more_fuel {block : List Stmt} {outcome : Outcome Flow} {more : Nat}
    (hfuel : fuel ≤ more) (h : execBlock (exec fuel) block context = outcome)
    (hends : outcome ≠ .outOfFuel) : execBlock (exec more) block context = outcome := by
  obtain ⟨further, rfl⟩ := Nat.exists_eq_add_of_le hfuel
  have hfollows : Follows { fuel := further } (execBlock (exec fuel) block)
      (execBlock (exec (fuel + further)) block) context :=
    Program.follows block fun _ _ haverts => Nat.lt_irrefl 0 haverts.1
  cases hfollows with
  | outOfFuel hleft _ => exact absurd (h.symm.trans hleft) hends
  | averted _ haverts => exact absurd haverts.1 (Nat.lt_irrefl 0)
  | same hsame => rwa [Context.plus_fuel, Outcome.plus_fuel, h] at hsame

end

end Bhasha
