import Bhasha.Program

/-!
# Programs without some definitions

The definitions of functions with hidden names are left out of a program, wherever they stand: in
the program itself, in branches, loops and attempts, in handlers, and in the bodies of functions.
-/

namespace Bhasha

/-- Whether a statement defines a function with a hidden name. -/
def Stmt.definesHidden (hidden : String → Bool) : Stmt → Bool
  | .define name _ _ _ => hidden name
  | _ => false

mutual

/-- The statement without the definitions of hidden names inside it. -/
def Stmt.without (hidden : String → Bool) : Stmt → Stmt
  | .branch condition yes no line =>
      .branch condition (Stmt.withoutBlock hidden yes) (Stmt.withoutOption hidden no) line
  | .loop condition body line => .loop condition (Stmt.withoutBlock hidden body) line
  | .range counter first bound step body line =>
      .range counter first bound step (Stmt.withoutBlock hidden body) line
  | .define name parameters body line =>
      .define name parameters (Stmt.withoutBlock hidden body) line
  | .attempt body errorName handler line =>
      .attempt (Stmt.withoutBlock hidden body) errorName (Stmt.withoutBlock hidden handler) line
  | statement => statement

/-- The block without the definitions of hidden names among its statements and inside them. -/
def Stmt.withoutBlock (hidden : String → Bool) : List Stmt → List Stmt
  | [] => []
  | statement :: rest =>
      if statement.definesHidden hidden then Stmt.withoutBlock hidden rest
      else statement.without hidden :: Stmt.withoutBlock hidden rest

def Stmt.withoutOption (hidden : String → Bool) : Option (List Stmt) → Option (List Stmt)
  | none => none
  | some block => some (Stmt.withoutBlock hidden block)

end

/-- The function without the definitions of hidden names in its body. -/
def Function.without (hidden : String → Bool) (function : Function) : Function :=
  { function with body := Stmt.withoutBlock hidden function.body }

variable {hidden : String → Bool}

theorem Stmt.withoutOption_getD (hidden : String → Bool) (block : Option (List Stmt)) :
    (Stmt.withoutOption hidden block).getD [] = Stmt.withoutBlock hidden (block.getD []) := by
  cases block <;> rfl

theorem Stmt.definesHidden_eq_false (h : ∀ name, hidden name = false) (statement : Stmt) :
    statement.definesHidden hidden = false := by
  cases statement with
  | define name parameters body line => exact h name
  | _ => rfl

mutual

/-- Where no name is hidden, nothing is left out. -/
theorem Stmt.without_eq_self (h : ∀ name, hidden name = false) (statement : Stmt) :
    statement.without hidden = statement := by
  cases statement with
  | branch condition yes no line =>
      rw [Stmt.without, Stmt.withoutBlock_eq_self h yes, Stmt.withoutOption_eq_self h no]
  | loop condition body line => rw [Stmt.without, Stmt.withoutBlock_eq_self h body]
  | range counter first bound step body line =>
      rw [Stmt.without, Stmt.withoutBlock_eq_self h body]
  | define name parameters body line => rw [Stmt.without, Stmt.withoutBlock_eq_self h body]
  | attempt body errorName handler line =>
      rw [Stmt.without, Stmt.withoutBlock_eq_self h body, Stmt.withoutBlock_eq_self h handler]
  | _ => rfl

theorem Stmt.withoutBlock_eq_self (h : ∀ name, hidden name = false) (block : List Stmt) :
    Stmt.withoutBlock hidden block = block := by
  cases block with
  | nil => rfl
  | cons statement rest =>
      rw [Stmt.withoutBlock, if_neg (by simp [Stmt.definesHidden_eq_false h]),
        Stmt.without_eq_self h statement, Stmt.withoutBlock_eq_self h rest]

theorem Stmt.withoutOption_eq_self (h : ∀ name, hidden name = false) (block : Option (List Stmt)) :
    Stmt.withoutOption hidden block = block := by
  cases block with
  | none => rfl
  | some block => rw [Stmt.withoutOption, Stmt.withoutBlock_eq_self h block]

end

theorem Function.without_eq_self (h : ∀ name, hidden name = false) (function : Function) :
    function.without hidden = function := by
  rw [Function.without, Stmt.withoutBlock_eq_self h]

end Bhasha
