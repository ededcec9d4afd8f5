import Bhasha.Program

/-!
# The lines of a program

Every node of a tree keeps a line.  Here the lines of a tree are collected, and exchanged for
others without any other change.  Trees that differ in their lines only become the same when all
lines are made equal.
-/

namespace Bhasha

mutual

/-- The lines of an expression and of all expressions inside it. -/
def Expr.lines : Expr → List Nat
  | .literal _ line => [line]
  | .var _ line => [line]
  | .unary _ operand line => line :: operand.lines
  | .binary _ left right line => line :: (left.lines ++ right.lines)
  | .logical _ left right line => line :: (left.lines ++ right.lines)
  | .list elements line => line :: Expr.linesOfAll elements
  | .record entries line => line :: Expr.linesOfEntries entries
  | .index target position line => line :: (target.lines ++ position.lines)
  | .property target _ line => line :: target.lines
  | .call _ arguments line => line :: Expr.linesOfAll arguments

def Expr.linesOfAll : List Expr → List Nat
  | [] => []
  | expr :: rest => expr.lines ++ Expr.linesOfAll rest

def Expr.linesOfEntries : List (String × Expr) → List Nat
  | [] => []
  | (_, expr) :: rest => expr.lines ++ Expr.linesOfEntries rest

end

def Expr.linesOfOption : Option Expr → List Nat
  | none => []
  | some expr => expr.lines

mutual

/-- The lines of a statement and of everything inside it. -/
def Stmt.lines : Stmt → List Nat
  | .declare _ value line => line :: value.lines
  | .print value line => line :: value.lines
  | .assign _ value line => line :: value.lines
  | .assignIndex _ position value line => line :: (position.lines ++ value.lines)
  | .assignProperty _ _ value line => line :: value.lines
  | .branch condition yes no line =>
      line :: (condition.lines ++ (Stmt.linesOfBlock yes ++ Stmt.linesOfOption no))
  | .loop condition body line => line :: (condition.lines ++ Stmt.linesOfBlock body)
  | .range _ first bound step body line =>
      line :: (first.lines ++ (bound.lines ++
        (Expr.linesOfOption step ++ Stmt.linesOfBlock body)))
  | .define _ _ body line => line :: Stmt.linesOfBlock body
  | .giveBack value line => line :: Expr.linesOfOption value
  | .leave line => [line]
  | .proceed line => [line]
  | .attempt body _ handler line =>
      line :: (Stmt.linesOfBlock body ++ Stmt.linesOfBlock handler)
  | .expression value line => line :: value.lines

def Stmt.linesOfBlock : List Stmt → List Nat
  | [] => []
  | statement :: rest => statement.lines ++ Stmt.linesOfBlock rest

def Stmt.linesOfOption : Option (List Stmt) → List Nat
  | none => []
  | some block => Stmt.linesOfBlock block

end

/-- The lines of all statements and expressions of a program. -/
def Program.lines (program : Program) : List Nat :=
  Stmt.linesOfBlock program

theorem Expr.mem_linesOfAll {exprs : List Expr} {line : Nat} :
    line ∈ Expr.linesOfAll exprs ↔ ∃ expr ∈ exprs, line ∈ expr.lines := by
  induction exprs with
  | nil => simp [Expr.linesOfAll]
  | cons expr rest ih => simp [Expr.linesOfAll, ih]

theorem Expr.mem_linesOfEntries {entries : List (String × Expr)} {line : Nat} :
    line ∈ Expr.linesOfEntries entries ↔ ∃ entry ∈ entries, line ∈ entry.2.lines := by
  induction entries with
  | nil => simp [Expr.linesOfEntries]
  | cons entry rest ih => simp [Expr.linesOfEntries, ih]

theorem Stmt.mem_linesOfBlock {block : List Stmt} {line : Nat} :
    line ∈ Stmt.linesOfBlock block ↔ ∃ statement ∈ block, line ∈ statement.lines := by
  induction block with
  | nil => simp [Stmt.linesOfBlock]
  | cons statement rest ih => simp [Stmt.linesOfBlock, ih]

mutual

/-- The expression with every line exchanged for its image. -/
def Expr.relabel (label : Nat → Nat) : Expr → Expr
  | .literal value line => .literal value (label line)
  | .var name line => .var name (label line)
  | .unary op operand line => .unary op (operand.relabel label) (label line)
  | .binary op left right line =>
      .binary op (left.relabel label) (right.relabel label) (label line)
  | .logical op left right line =>
      .logical op (left.relabel label) (right.relabel label) (label line)
  | .list elements line => .list (Expr.relabelAll label elements) (label line)
  | .record entries line => .record (Expr.relabelEntries label entries) (label line)
  | .index target position line =>
      .index (target.relabel label) (position.relabel label) (label line)
  | .property target name line => .property (target.relabel label) name (label line)
  | .call name arguments line => .call name (Expr.relabelAll label arguments) (label line)

def Expr.relabelAll (label : Nat → Nat) : List Expr → List Expr
  | [] => []
  | expr :: rest => expr.relabel label :: Expr.relabelAll label rest

def Expr.relabelEntries (label : Nat → Nat) : List (String × Expr) → List (String × Expr)
  | [] => []
  | (key, expr) :: rest => (key, expr.relabel label) :: Expr.relabelEntries label rest

end

def Expr.relabelOption (label : Nat → Nat) : Option Expr → Option Expr
  | none => none
  | some expr => some (expr.relabel label)

mutual

/-- The statement with every line exchanged for its image. -/
def Stmt.relabel (label : Nat → Nat) : Stmt → Stmt
  | .declare name value line => .declare name (value.relabel label) (label line)
  | .print value line => .print (value.relabel label) (label line)
  | .assign name value line => .assign name (value.relabel label) (label line)
  | .assignIndex name position value line =>
      .assignIndex name (position.relabel label) (value.relabel label) (label line)
  | .assignProperty name property value line =>
      .assignProperty name property (value.relabel label) (label line)
  | .branch condition yes no line =>
      .branch (condition.relabel label) (Stmt.relabelBlock label yes)
        (Stmt.relabelOption label no) (label line)
  | .loop condition body line =>
      .loop (condition.relabel label) (Stmt.relabelBlock label body) (label line)
  | .range counter first bound step body line =>
      .range counter (first.relabel label) (bound.relabel label) (Expr.relabelOption label step)
        (Stmt.relabelBlock label body) (label line)
  | .define name parameters body line =>
      .define name parameters (Stmt.relabelBlock label body) (label line)
  | .giveBack value line => .giveBack (Expr.relabelOption label value) (label line)
  | .leave line => .leave (label line)
  | .proceed line => .proceed (label line)
  | .attempt body errorName handler line =>
      .attempt (Stmt.relabelBlock label body) errorName (Stmt.relabelBlock label handler)
        (label line)
  | .expression value line => .expression (value.relabel label) (label line)

def Stmt.relabelBlock (label : Nat → Nat) : List Stmt → List Stmt
  | [] => []
  | statement :: rest => statement.relabel label :: Stmt.relabelBlock label rest

def Stmt.relabelOption (label : Nat → Nat) : Option (List Stmt) → Option (List Stmt)
  | none => none
  | some block => some (Stmt.relabelBlock label block)

end

/-- The program with every line exchanged for its image. -/
def Program.relabel (label : Nat → Nat) (program : Program) : Program :=
  Stmt.relabelBlock label program

/-- The function with every line exchanged for its image. -/
def Function.relabel (label : Nat → Nat) (function : Function) : Function where
  name := function.name
  parameters := function.parameters
  body := Stmt.relabelBlock label function.body
  line := label function.line

theorem Expr.relabelAll_eq_map (label : Nat → Nat) (exprs : List Expr) :
    Expr.relabelAll label exprs = exprs.map (·.relabel label) := by
  induction exprs with
  | nil => rfl
  | cons expr rest ih => simp [Expr.relabelAll, ih]

theorem Expr.relabelEntries_eq_map (label : Nat → Nat) (entries : List (String × Expr)) :
    Expr.relabelEntries label entries =
      entries.map fun entry => (entry.1, entry.2.relabel label) := by
  induction entries with
  | nil => rfl
  | cons entry rest ih => simp [Expr.relabelEntries, ih]

theorem Stmt.relabelOption_getD (label : Nat → Nat) (block : Option (List Stmt)) :
    (Stmt.relabelOption label block).getD [] = Stmt.relabelBlock label (block.getD []) := by
  cases block <;> rfl

section

variable {label : Nat → Nat}

mutual

/-- A tree is left as it is when its lines are. -/
theorem Expr.relabel_eq_self (expr : Expr) (h : ∀ line ∈ expr.lines, label line = line) :
    expr.relabel label = expr := by
  cases expr with
  | literal value line =>
      rw [Expr.relabel, h line (by simp [Expr.lines])]
  | var name line =>
      rw [Expr.relabel, h line (by simp [Expr.lines])]
  | unary op operand line =>
      simp only [Expr.lines, List.forall_mem_cons] at h
      rw [Expr.relabel, operand.relabel_eq_self h.2, h.1]
  | binary op left right line =>
      simp only [Expr.lines, List.forall_mem_cons, List.forall_mem_append] at h
      rw [Expr.relabel, left.relabel_eq_self h.2.1, right.relabel_eq_self h.2.2, h.1]
  | logical op left right line =>
      simp only [Expr.lines, List.forall_mem_cons, List.forall_mem_append] at h
      rw [Expr.relabel, left.relabel_eq_self h.2.1, right.relabel_eq_self h.2.2, h.1]
  | list elements line =>
      simp only [Expr.lines, List.forall_mem_cons] at h
      rw [Expr.relabel, Expr.relabelAll_eq_self elements h.2, h.1]
  | record entries line =>
      simp only [Expr.lines, List.forall_mem_cons] at h
      rw [Expr.relabel, Expr.relabelEntries_eq_self entries h.2, h.1]
  | index target position line =>
      simp only [Expr.lines, List.forall_mem_cons, List.forall_mem_append] at h
      rw [Expr.relabel, target.relabel_eq_self h.2.1, position.relabel_eq_self h.2.2, h.1]
  | property target name line =>
      simp only [Expr.lines, List.forall_mem_cons] at h
      rw [Expr.relabel, target.relabel_eq_self h.2, h.1]
  | call name arguments line =>
      simp only [Expr.lines, List.forall_mem_cons] at h
      rw [Expr.relabel, Expr.relabelAll_eq_self arguments h.2, h.1]

theorem Expr.relabelAll_eq_self (exprs : List Expr)
    (h : ∀ line ∈ Expr.linesOfAll exprs, label line = line) :
    Expr.relabelAll label exprs = exprs := by
  cases exprs with
  | nil => rfl
  | cons expr rest =>
      simp only [Expr.linesOfAll, List.forall_mem_append] at h
      rw [Expr.relabelAll, expr.relabel_eq_self h.1, Expr.relabelAll_eq_self rest h.2]

theorem Expr.relabelEntries_eq_self (entries : List (String × Expr))
    (h : ∀ line ∈ Expr.linesOfEntries entries, label line = line) :
    Expr.relabelEntries label entries = entries := by
  cases entries with
  | nil => rfl
  | cons entry rest =>
      obtain ⟨key, expr⟩ := entry
      simp only [Expr.linesOfEntries, List.forall_mem_append] at h
      rw [Expr.relabelEntries, expr.relabel_eq_self h.1, Expr.relabelEntries_eq_self rest h.2]

end

theorem Expr.relabelOption_eq_self (expr : Option Expr)
    (h : ∀ line ∈ Expr.linesOfOption expr, label line = line) :
    Expr.relabelOption label expr = expr := by
  cases expr with
  | none => rfl
  | some expr => rw [Expr.relabelOption, expr.relabel_eq_self h]

mutual

theorem Stmt.relabel_eq_self (statement : Stmt)
    (h : ∀ line ∈ statement.lines, label line = line) : statement.relabel label = statement := by
  cases statement with
  | declare name value line =>
      simp only [Stmt.lines, List.forall_mem_cons] at h
      rw [Stmt.relabel, value.relabel_eq_self h.2, h.1]
  | print value line =>
      simp only [Stmt.lines, List.forall_mem_cons] at h
      rw [Stmt.relabel, value.relabel_eq_self h.2, h.1]
  | assign name value line =>
      simp only [Stmt.lines, List.forall_mem_cons] at h
      rw [Stmt.relabel, value.relabel_eq_self h.2, h.1]
  | assignIndex name position value line =>
      simp only [Stmt.lines, List.forall_mem_cons, List.forall_mem_append] at h
      rw [Stmt.relabel, position.relabel_eq_self h.2.1, value.relabel_eq_self h.2.2, h.1]
  | assignProperty name property value line =>
      simp only [Stmt.lines, List.forall_mem_cons] at h
      rw [Stmt.relabel, value.relabel_eq_self h.2, h.1]
  | branch condition yes no line =>
      simp only [Stmt.lines, List.forall_mem_cons, List.forall_mem_append] at h
      obtain ⟨hline, hcondition, hyes, hno⟩ := h
      rw [Stmt.relabel, condition.relabel_eq_self hcondition, Stmt.relabelBlock_eq_self yes hyes,
        Stmt.relabelOption_eq_self no hno, hline]
  | loop condition body line =>
      simp only [Stmt.lines, List.forall_mem_cons, List.forall_mem_append] at h
      obtain ⟨hline, hcondition, hbody⟩ := h
      rw [Stmt.relabel, condition.relabel_eq_self hcondition,
        Stmt.relabelBlock_eq_self body hbody, hline]
  | range counter first bound step body line =>
      simp only [Stmt.lines, List.forall_mem_cons, List.forall_mem_append] at h
      obtain ⟨hline, hfirst, hbound, hstep, hbody⟩ := h
      rw [Stmt.relabel, first.relabel_eq_self hfirst, bound.relabel_eq_self hbound,
        Expr.relabelOption_eq_self step hstep, Stmt.relabelBlock_eq_self body hbody, hline]
  | define name parameters body line =>
      simp only [Stmt.lines, List.forall_mem_cons] at h
      rw [Stmt.relabel, Stmt.relabelBlock_eq_self body h.2, h.1]
  | giveBack value line =>
      simp only [Stmt.lines, List.forall_mem_cons] at h
      rw [Stmt.relabel, Expr.relabelOption_eq_self value h.2, h.1]
  | leave line =>
      rw [Stmt.relabel, h line (by simp [Stmt.lines])]
  | proceed line =>
      rw [Stmt.relabel, h line (by simp [Stmt.lines])]
  | attempt body errorName handler line =>
      simp only [Stmt.lines, List.forall_mem_cons, List.forall_mem_append] at h
      obtain ⟨hline, hbody, hhandler⟩ := h
      rw [Stmt.relabel, Stmt.relabelBlock_eq_self body hbody,
        Stmt.relabelBlock_eq_self handler hhandler, hline]
  | expression value line =>
      simp only [Stmt.lines, List.forall_mem_cons] at h
      rw [Stmt.relabel, value.relabel_eq_self h.2, h.1]

theorem Stmt.relabelBlock_eq_self (block : List Stmt)
    (h : ∀ line ∈ Stmt.linesOfBlock block, label line = line) :
    Stmt.relabelBlock label block = block := by
  cases block with
  | nil => rfl
  | cons statement rest =>
      simp only [Stmt.linesOfBlock, List.forall_mem_append] at h
      rw [Stmt.relabelBlock, statement.relabel_eq_self h.1, Stmt.relabelBlock_eq_self rest h.2]

theorem Stmt.relabelOption_eq_self (block : Option (List Stmt))
    (h : ∀ line ∈ Stmt.linesOfOption block, label line = line) :
    Stmt.relabelOption label block = block := by
  cases block with
  | none => rfl
  | some block =>
      rw [Stmt.linesOfOption] at h
      rw [Stmt.relabelOption, Stmt.relabelBlock_eq_self block h]

end

end

end Bhasha
