/-!
# Programs

The trees that source texts are read into.  Every node keeps the line that errors raised at it
report: that of its operator or bracket if it has one, else that of its first token.
-/

namespace Bhasha

/-- The operators in front of an operand. -/
inductive UnaryOp where
  | negate
  | not
deriving DecidableEq

def UnaryOp.spelling : UnaryOp → String
  | negate => "-"
  | not => "!"

/-- The operators between two operands that are both evaluated. -/
inductive BinaryOp where
  | add
  | subtract
  | multiply
  | divide
  | modulo
  | equal
  | notEqual
  | less
  | lessEqual
  | greater
  | greaterEqual
deriving DecidableEq

namespace BinaryOp

def all : List BinaryOp :=
  [add, subtract, multiply, divide, modulo, equal, notEqual, less, lessEqual, greater,
    greaterEqual]

def spelling : BinaryOp → String
  | add => "+"
  | subtract => "-"
  | multiply => "*"
  | divide => "/"
  | modulo => "%"
  | equal => "=="
  | notEqual => "!="
  | less => "<"
  | lessEqual => "<="
  | greater => ">"
  | greaterEqual => ">="

def isComparison : BinaryOp → Bool
  | equal | notEqual | less | lessEqual | greater | greaterEqual => true
  | add | subtract | multiply | divide | modulo => false

end BinaryOp

/-- The operators whose left operand may decide alone. -/
inductive LogicalOp where
  | and
  | or
deriving DecidableEq

def LogicalOp.spelling : LogicalOp → String
  | and => "and"
  | or => "or"

/-- The constants of the language. -/
inductive Literal where
  | number (value : Float)
  | text (value : String)
  | boolean (value : Bool)
  | null
deriving DecidableEq

inductive Expr where
  | literal (value : Literal) (line : Nat)
  | var (name : String) (line : Nat)
  | unary (op : UnaryOp) (operand : Expr) (line : Nat)
  | binary (op : BinaryOp) (left right : Expr) (line : Nat)
  | logical (op : LogicalOp) (left right : Expr) (line : Nat)
  | list (elements : List Expr) (line : Nat)
  | record (entries : List (String × Expr)) (line : Nat)
  | index (target position : Expr) (line : Nat)
  | property (target : Expr) (name : String) (line : Nat)
  | call (name : String) (arguments : List Expr) (line : Nat)

def Expr.line : Expr → Nat
  | literal _ line | var _ line | unary _ _ line | binary _ _ _ line | logical _ _ _ line
  | list _ line | record _ line | index _ _ line | property _ _ line | call _ _ line => line

inductive Stmt where
  | declare (name : String) (value : Expr) (line : Nat)
  | print (value : Expr) (line : Nat)
  /-- Rebinds a name in the nearest scope that has it. -/
  | assign (name : String) (value : Expr) (line : Nat)
  /-- Writes into the container that a name stands for, by index. -/
  | assignIndex (name : String) (position value : Expr) (line : Nat)
  /-- Writes into the record that a name stands for, by key. -/
  | assignProperty (name property : String) (value : Expr) (line : Nat)
  | branch (condition : Expr) (yes : List Stmt) (no : Option (List Stmt)) (line : Nat)
  | loop (condition : Expr) (body : List Stmt) (line : Nat)
  /-- Runs its body for the counters of a range. -/
  | range (counter : String) (first bound : Expr) (step : Option Expr) (body : List Stmt)
      (line : Nat)
  | define (name : String) (parameters : List String) (body : List Stmt) (line : Nat)
  | giveBack (value : Option Expr) (line : Nat)
  /-- Leaves the innermost loop. -/
  | leave (line : Nat)
  /-- Goes on with the next round of the innermost loop. -/
  | proceed (line : Nat)
  /-- Runs a handler if its body fails. -/
  | attempt (body : List Stmt) (errorName : String) (handler : List Stmt) (line : Nat)
  | expression (value : Expr) (line : Nat)

def Stmt.line : Stmt → Nat
  | declare _ _ line | print _ line | assign _ _ line | assignIndex _ _ _ line
  | assignProperty _ _ _ line | branch _ _ _ line | loop _ _ line | range _ _ _ _ _ line
  | define _ _ _ line | giveBack _ line | leave line | proceed line | attempt _ _ _ line
  | expression _ line => line

/-- A program is a list of statements. -/
abbrev Program := List Stmt

/-- A function that a program has defined. -/
structure Function where
  name : String
  parameters : List String
  body : List Stmt
  line : Nat

end Bhasha
