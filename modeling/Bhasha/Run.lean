import Bhasha.Eval
import Bhasha.Parser.Statement

/-!
# Running a source text

A source text is read and run in a new context.  Its values are handed over together with the
store in which they are to be shown.
-/

namespace Bhasha

/-- Why running a source text has no output. -/
inductive RunError where
  | parse (error : ParseError)
  | fault (fault : Fault)
deriving DecidableEq

namespace RunError

def line : RunError → Nat
  | parse error => error.line
  | fault cause => cause.line

def message : RunError → String
  | parse error => error.message
  | fault cause => cause.message

end RunError

/-- How running a source text ends. -/
inductive RunResult where
  /-- With the values that were printed, and the store that they live in. -/
  | finished (output : Array Value) (store : Store)
  | failed (error : RunError)
  | fatal
  | outOfFuel

/-- Runs a source text. -/
def run (fuel : Nat) (config : Config) (random : RandomSource) (source : String) : RunResult :=
  match Program.parse source with
  | .error error => .failed (.parse error)
  | .ok program =>
      match program.evaluate fuel { config := config, random := random } with
      | .ok output context => .finished output context.store
      | .fault fault _ => .failed (.fault fault)
      | .fatal => .fatal
      | .outOfFuel => .outOfFuel

/-- More fuel than any machine can burn. -/
def ampleFuel : Nat := Nat.pow 2 62

end Bhasha
