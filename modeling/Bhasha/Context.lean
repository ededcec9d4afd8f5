import Bhasha.Fault
import Bhasha.RandomSource
import Bhasha.Scopes
import Bhasha.Store

/-!
# The state of a run

A context holds everything that a program can change or see.  An action is a piece of a run: it
ends well, in a fault that keeps what was done before it, in the one fatal end, or it does not
end within its fuel.
-/

namespace Bhasha

/-- What a run can be told beforehand. -/
structure Config where
  /-- The number of function bodies that may run inside one another. -/
  maxCallDepth : Nat := 128
deriving DecidableEq

structure Context where
  store : Store := .empty
  scopes : Scopes := {}
  functions : Table Function := .empty
  /-- What has been printed and not yet handed over. -/
  output : Array Value := #[]
  /-- The number of function bodies that are running. -/
  callDepth : Nat := 0
  config : Config := {}
  random : RandomSource

/-- How an action ends. -/
inductive Outcome (α : Type) where
  | ok (value : α) (context : Context)
  | fault (fault : Fault) (context : Context)
  | fatal
  | outOfFuel

/-- A piece of a run. -/
def Action (α : Type) : Type :=
  Context → Outcome α

namespace Action

variable {α β γ : Type}

protected def pure (value : α) : Action α := fun context =>
  .ok value context

/-- Goes on after an action that ends well. -/
protected def bind (first : Action α) (next : α → Action β) : Action β := fun context =>
  match first context with
  | .ok value context => next value context
  | .fault fault context => .fault fault context
  | .fatal => .fatal
  | .outOfFuel => .outOfFuel

instance : Monad Action where
  pure := Action.pure
  bind := Action.bind

@[simp] theorem pure_apply (value : α) (context : Context) :
    (pure value : Action α) context = .ok value context :=
  rfl

theorem bind_apply (first : Action α) (next : α → Action β) (context : Context) :
    (first >>= next) context =
      match first context with
      | .ok value context => next value context
      | .fault fault context => .fault fault context
      | .fatal => .fatal
      | .outOfFuel => .outOfFuel :=
  rfl

theorem bind_pure_self (action : Action α) : (action >>= pure) = action := by
  funext context
  rw [bind_apply]
  cases action context <;> rfl

theorem bind_bind (action : Action α) (first : α → Action β) (second : β → Action γ) :
    (action >>= first) >>= second = action >>= fun value => first value >>= second := by
  funext context
  simp only [bind_apply]
  cases action context <;> rfl

instance : LawfulMonad Action :=
  LawfulMonad.mk' Action bind_pure_self (fun _ _ => rfl) bind_bind

def modify (change : Context → Context) : Action Unit := fun context =>
  .ok () (change context)

def raise (cause : FaultCause) (line : Nat) : Action α := fun context =>
  .fault ⟨cause, line⟩ context

/-- The result of something that may be a fault. -/
def ofExcept (result : Except Fault α) : Action α := fun context =>
  match result with
  | .ok value => .ok value context
  | .error fault => .fault fault context

/-- Reads a result off the store. -/
def reading (read : Store → Except Fault α) : Action α := fun context =>
  ofExcept (read context.store) context

/-- Does something to the store, or fails and leaves it as it is. -/
def writing (write : Store → Except Halt (α × Effect)) : Action α := fun context =>
  match write context.store with
  | .ok (value, effect) => .ok value { context with store := effect.apply context.store }
  | .error (.fault fault) => .fault fault context
  | .error .fatal => .fatal

def newList (items : Array Value) : Action Value := fun context =>
  .ok (.list context.store.size) { context with store := context.store.add (.list items) }

def newRecord (fields : Table Value) : Action Value := fun context =>
  .ok (.record context.store.size) { context with store := context.store.add (.record fields) }

/-- Runs an action in a new scope and leaves the scope however the action ends. -/
def withScope (body : Action α) : Action α := fun context =>
  match body { context with scopes := context.scopes.push } with
  | .ok value context => .ok value { context with scopes := context.scopes.pop }
  | .fault fault context => .fault fault { context with scopes := context.scopes.pop }
  | .fatal => .fatal
  | .outOfFuel => .outOfFuel

def deeper (body : Action α) : Action α := fun context =>
  match body { context with callDepth := context.callDepth + 1 } with
  | .ok value context => .ok value { context with callDepth := context.callDepth - 1 }
  | .fault fault context => .fault fault { context with callDepth := context.callDepth - 1 }
  | .fatal => .fatal
  | .outOfFuel => .outOfFuel

/-- Runs an action and, if it ends in a fault, the handler of the fault. -/
def handling (body : Action α) (handler : Fault → Action α) : Action α := fun context =>
  match body context with
  | .fault fault context => handler fault context
  | outcome => outcome

def nextDraw : Action Float := fun context =>
  .ok context.random.next context

def define (name : String) (value : Value) : Action Unit :=
  modify fun context => { context with scopes := context.scopes.define name value }

/-- The value of a name; a name without one is a fault. -/
def lookup (name : String) (line : Nat) : Action Value := fun context =>
  match context.scopes.get? name with
  | some value => .ok value context
  | none => .fault ⟨.undefinedVariable name, line⟩ context

/-- Rebinds a name in the nearest scope that has it; a name that no scope has is a fault. -/
def assign (name : String) (value : Value) (line : Nat) : Action Unit := fun context =>
  match context.scopes.assign? name value with
  | some scopes => .ok () { context with scopes := scopes }
  | none => .fault ⟨.undefinedAssignment name, line⟩ context

def print (value : Value) : Action Unit :=
  modify fun context => { context with output := context.output.push value }

end Action

end Bhasha
