import Bhasha.Builtin.Apply
import Bhasha.Context

/-!
# Running programs

What an expression or a statement does is given one layer at a time, in terms of what the
expressions and statements inside it do.  Closing the layers takes fuel: a run may go on for
ever, so the depth of layers and the rounds of every loop are bounded by a number, and an action
that needs more ends out of fuel, which is neither a value nor a fault.
-/

namespace Bhasha

/-- How a statement hands over control. -/
inductive Flow where
  | normal
  /-- Out of the innermost loop; the line is that of the statement that asked for it. -/
  | broke (line : Nat)
  /-- To the next round of the innermost loop. -/
  | continued (line : Nat)
  /-- Out of the function, with a value. -/
  | returned (value : Value) (line : Nat)
deriving DecidableEq

abbrev Evaluator := Expr → Action Value

abbrev Executor := Stmt → Action Flow

def evalAll (eval : Evaluator) : List Expr → Action (List Value)
  | [] => return []
  | expr :: rest => do
      let value ← eval expr
      let values ← evalAll eval rest
      return value :: values

/-- Evaluates the entries of a record in turn, and adds them to a table. -/
def evalEntries (eval : Evaluator) (fields : Table Value) :
    List (String × Expr) → Action (Table Value)
  | [] => return fields
  | (key, expr) :: rest => do
      let value ← eval expr
      evalEntries eval (fields.insert key value) rest

/-- Executes statements in turn, until one hands over control elsewhere. -/
def execBlock (exec : Executor) : List Stmt → Action Flow
  | [] => return .normal
  | statement :: rest => do
      match ← exec statement with
      | .normal => execBlock exec rest
      | flow => return flow

/-- Binds names to values in the innermost scope, in turn. -/
def defineAll : List (String × Value) → Action Unit
  | [] => return ()
  | (name, value) :: rest => do
      Action.define name value
      defineAll rest

/-- Notes that a built-in function has drawn a random number, if it does so. -/
def Builtin.noteDraw (builtin : Builtin) : Action Unit :=
  if builtin = .random then
    Action.modify fun context => { context with random := context.random.advance }
  else return ()

def callBuiltin (builtin : Builtin) (arguments : List Value) (line : Nat) : Action Value := do
  if builtin.arity.accepts arguments.length then
    let draw ← Action.nextDraw
    let result ← Action.writing (builtin.apply arguments line draw)
    builtin.noteDraw
    return result
  else Action.ofExcept (.error (builtin.miscount arguments line))

/-- What a call gives when the body of its function has handed over control. -/
def Flow.toResult : Flow → Action Value
  | normal => return .null
  | returned value _ => return value
  | broke line => Action.raise .breakOutsideLoop line
  | continued line => Action.raise .continueOutsideLoop line

/-- Runs the body of a function on its arguments, in a scope of its own and one call deeper. -/
def runBody (exec : Executor) (function : Function) (arguments : List Value) : Action Value := do
  let flow ← Action.deeper (Action.withScope do
    defineAll (function.parameters.zip arguments)
    execBlock exec function.body)
  flow.toResult

/-- Calls a function that the program has defined.  Its body sees the scopes of the caller. -/
def callFunction (exec : Executor) (function : Function) (arguments : List Value) (line : Nat) :
    Action Value := fun context =>
  let expected := function.parameters.length
  let limit := context.config.maxCallDepth
  if arguments.length ≠ expected then
    .fault ⟨.argumentCount function.name (.exactly expected) arguments.length, line⟩ context
  else if limit ≤ context.callDepth then .fault ⟨.callDepthExceeded limit, line⟩ context
  else runBody exec function arguments context

/-- The function with a name; a name without one is a fault. -/
def findFunction (name : String) (line : Nat) : Action Function := fun context =>
  match context.functions.get? name with
  | some function => .ok function context
  | none => .fault ⟨.undefinedFunction name, line⟩ context

/-- Evaluates the arguments of a call and makes it.  A built-in function comes before one of the
program, which is looked for before its arguments are evaluated. -/
def evalCall (eval : Evaluator) (exec : Executor) (name : String) (arguments : List Expr)
    (line : Nat) : Action Value :=
  match Builtin.ofName? name with
  | some builtin => do
      let values ← evalAll eval arguments
      callBuiltin builtin values line
  | none => do
      let function ← findFunction name line
      let values ← evalAll eval arguments
      callFunction exec function values line

/-- Whether the left operand of a logical operator decides alone. -/
def LogicalOp.decides (op : LogicalOp) (left : Value) : Bool :=
  match op with
  | and => !left.truthy
  | or => left.truthy

def evalWith (eval : Evaluator) (exec : Executor) : Evaluator
  | .literal value _ => return value.toValue
  | .var name line => Action.lookup name line
  | .unary op operand line => do
      let value ← eval operand
      Action.ofExcept (op.apply value line)
  | .binary op left right line => do
      let leftValue ← eval left
      let rightValue ← eval right
      Action.reading fun store => op.apply store leftValue rightValue line
  | .logical op left right _ => do
      let leftValue ← eval left
      if op.decides leftValue then return leftValue else eval right
  | .list elements _ => do
      let values ← evalAll eval elements
      Action.newList values.toArray
  | .record entries _ => do
      let fields ← evalEntries eval .empty entries
      Action.newRecord fields
  | .index target position line => do
      let targetValue ← eval target
      let positionValue ← eval position
      Action.reading fun store => targetValue.readIndex store positionValue line
  | .property target name line => do
      let targetValue ← eval target
      Action.reading fun store => targetValue.readProperty store name line
  | .call name arguments line => evalCall eval exec name arguments line

/-- What follows a round of a loop: the next one, or the flow with which the loop ends. -/
def Flow.afterRound : Flow → Option Flow
  | normal | continued _ => none
  | broke _ => some normal
  | returned value line => some (returned value line)

/-- The rounds of a loop with a condition, at most so many. -/
def whileRounds (condition : Action Value) (body : Action Flow) : Nat → Action Flow
  | 0, _ => .outOfFuel
  | rounds + 1, context =>
      match condition context with
      | .ok value context =>
          if value.truthy then
            match body context with
            | .ok flow context =>
                match flow.afterRound with
                | none => whileRounds condition body rounds context
                | some flow => .ok flow context
            | outcome => outcome
          else .ok .normal context
      | .fault fault context => .fault fault context
      | .fatal => .fatal
      | .outOfFuel => .outOfFuel

/-- Whether a counter is still in front of the bound of its range. -/
def inRange (bound step counter : Float) : Bool :=
  if 0 ≤ step then counter < bound else bound < counter

/-- The rounds of a loop over a range, at most so many.  The counter is bound anew before each
round, so nothing that the body does changes the counters of later rounds. -/
def rangeRounds (name : String) (bound step : Float) (body : Action Flow) :
    Nat → Float → Action Flow
  | 0, _, _ => .outOfFuel
  | rounds + 1, counter, context =>
      if inRange bound step counter then
        match (do Action.define name (.number counter); body : Action Flow) context with
        | .ok flow context =>
            match flow.afterRound with
            | none => rangeRounds name bound step body rounds (counter + step) context
            | some flow => .ok flow context
        | outcome => outcome
      else .ok .normal context

/-- The number that an expression of the head of a range evaluates to. -/
def evalNumber (eval : Evaluator) (expr : Expr) (line : Nat) : Action Float := do
  let value ← eval expr
  Action.ofExcept (value.asNumber line)

/-- The step of a range, which is one unless it is given. -/
def evalStep (eval : Evaluator) (step : Option Expr) (line : Nat) : Action Float :=
  match step with
  | some expr => evalNumber eval expr line
  | none => return 1

/-- The value of a return, which is null unless it is given. -/
def evalReturned (eval : Evaluator) : Option Expr → Action Value
  | some expr => eval expr
  | none => return .null

/-- One layer of execution, in which every loop has at most so many rounds. -/
def execWith (eval : Evaluator) (exec : Executor) (rounds : Nat) : Executor
  | .declare name value _ => do
      Action.define name (← eval value)
      return .normal
  | .print value _ => do
      Action.print (← eval value)
      return .normal
  | .assign name value line => do
      Action.assign name (← eval value) line
      return .normal
  | .assignIndex name position value line => do
      let target ← Action.lookup name line
      let index ← eval position
      let written ← eval value
      Action.writing fun store =>
        (target.writeIndex store index written line).map fun effect => (.normal, effect)
  | .assignProperty name property value line => do
      let target ← Action.lookup name line
      let written ← eval value
      Action.writing fun _ =>
        (target.writeProperty property written line).map fun effect => (.normal, effect)
  | .branch condition yes no _ => do
      if (← eval condition).truthy then execBlock exec yes
      else execBlock exec (no.getD [])
  | .loop condition body _ =>
      Action.withScope (whileRounds (eval condition) (execBlock exec body) rounds)
  | .range counter first bound step body line => do
      let first ← evalNumber eval first line
      let bound ← evalNumber eval bound line
      let step ← evalStep eval step line
      Action.withScope (rangeRounds counter bound step (execBlock exec body) rounds first)
  | .define name parameters body line => do
      Action.modify fun context =>
        { context with functions := context.functions.insert name ⟨name, parameters, body, line⟩ }
      return .normal
  | .giveBack value line => do
      return .returned (← evalReturned eval value) line
  | .leave line => return .broke line
  | .proceed line => return .continued line
  | .attempt body errorName handler _ =>
      Action.handling (execBlock exec body) fun fault => Action.withScope do
        Action.define errorName (.text fault.message)
        execBlock exec handler
  | .expression value _ => do
      let _ ← eval value
      return .normal

mutual

def eval : Nat → Evaluator
  | 0, _ => fun _ => .outOfFuel
  | fuel + 1, expr => evalWith (eval fuel) (exec fuel) expr

def exec : Nat → Executor
  | 0, _ => fun _ => .outOfFuel
  | fuel + 1, statement => execWith (eval fuel) (exec fuel) fuel statement

end

@[simp] theorem eval_zero (expr : Expr) (context : Context) : eval 0 expr context = .outOfFuel :=
  rfl

@[simp] theorem eval_succ (fuel : Nat) (expr : Expr) :
    eval (fuel + 1) expr = evalWith (eval fuel) (exec fuel) expr :=
  rfl

@[simp] theorem exec_zero (statement : Stmt) (context : Context) :
    exec 0 statement context = .outOfFuel :=
  rfl

@[simp] theorem exec_succ (fuel : Nat) (statement : Stmt) :
    exec (fuel + 1) statement = execWith (eval fuel) (exec fuel) fuel statement :=
  rfl

/-- What a program gives when its statements have handed over control: the output is handed
over, and a transfer of control that nothing has taken is a fault. -/
def Flow.finish : Flow → Action (Array Value)
  | normal => fun context => .ok context.output { context with output := #[] }
  | broke line => Action.raise .breakOutsideLoop line
  | continued line => Action.raise .continueOutsideLoop line
  | returned _ line => Action.raise .returnOutsideFunction line

/-- Runs a program in a context, and hands over the output. -/
def Program.evaluate (fuel : Nat) (program : Program) : Action (Array Value) := do
  let flow ← execBlock (exec fuel) program
  flow.finish

end Bhasha
