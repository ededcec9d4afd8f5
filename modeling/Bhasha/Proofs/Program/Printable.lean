import Bhasha.Proofs.Program.Printer

/-!
# Programs that can be printed

Not every tree is read from a source text.  A name has to be a word, a number has to be the value
of the literal as which it is printed, and an expression that stands for a statement has to be a
call.  The tokens of a program that meets these conditions can be spelled.
-/

namespace Bhasha

open Grammar Printer

/-- A number is the value of the literal as which it is printed. -/
def Literal.Printable (style : Style) : Literal → Prop
  | number value => (style.numeral value).value = value
  | text _ | boolean _ | null => True

mutual

/-- The names in an expression can be read again, and so can its numbers.  Its texts and keys may
be any texts. -/
def Expr.Printable (style : Style) : Expr → Prop
  | .literal value _ => value.Printable style
  | .var name _ => Lexer.isName name = true
  | .unary _ inner _ => inner.Printable style
  | .binary _ left right _ => left.Printable style ∧ right.Printable style
  | .logical _ left right _ => left.Printable style ∧ right.Printable style
  | .list elements _ => Expr.PrintableAll style elements
  | .record entries _ => Expr.PrintableEntries style entries
  | .index target position _ => target.Printable style ∧ position.Printable style
  | .property target name _ => target.Printable style ∧ Lexer.isName name = true
  | .call name arguments _ => Lexer.isName name = true ∧ Expr.PrintableAll style arguments

def Expr.PrintableAll (style : Style) : List Expr → Prop
  | [] => True
  | expr :: rest => expr.Printable style ∧ Expr.PrintableAll style rest

def Expr.PrintableEntries (style : Style) : List (String × Expr) → Prop
  | [] => True
  | (_, expr) :: rest => expr.Printable style ∧ Expr.PrintableEntries style rest

end

def Expr.PrintableOption (style : Style) : Option Expr → Prop
  | none => True
  | some expr => expr.Printable style

mutual

/-- The names and expressions in a statement can be read again, and where an expression stands
for a statement it is a call. -/
def Stmt.Printable (style : Style) : Stmt → Prop
  | .declare name value _ => Lexer.isName name = true ∧ value.Printable style
  | .print value _ => value.Printable style
  | .assign name value _ => Lexer.isName name = true ∧ value.Printable style
  | .assignIndex name position value _ =>
      Lexer.isName name = true ∧ position.Printable style ∧ value.Printable style
  | .assignProperty name property value _ =>
      Lexer.isName name = true ∧ Lexer.isName property = true ∧ value.Printable style
  | .branch condition yes no _ =>
      condition.Printable style ∧ Stmt.PrintableBlock style yes ∧ Stmt.PrintableElse style no
  | .loop condition body _ => condition.Printable style ∧ Stmt.PrintableBlock style body
  | .range counter first bound step body _ =>
      Lexer.isName counter = true ∧ first.Printable style ∧ bound.Printable style ∧
        Expr.PrintableOption style step ∧ Stmt.PrintableBlock style body
  | .define name parameters body _ =>
      Lexer.isName name = true ∧ (∀ parameter ∈ parameters, Lexer.isName parameter = true) ∧
        Stmt.PrintableBlock style body
  | .giveBack value _ => Expr.PrintableOption style value
  | .leave _ => True
  | .proceed _ => True
  | .attempt body errorName handler _ =>
      Stmt.PrintableBlock style body ∧ Lexer.isName errorName = true ∧
        Stmt.PrintableBlock style handler
  | .expression value _ => value.isCall = true ∧ value.Printable style

def Stmt.PrintableBlock (style : Style) : List Stmt → Prop
  | [] => True
  | statement :: rest => statement.Printable style ∧ Stmt.PrintableBlock style rest

def Stmt.PrintableElse (style : Style) : Option (List Stmt) → Prop
  | none => True
  | some block => Stmt.PrintableBlock style block

end

/-- Everything in a program can be read again. -/
def Program.Printable (style : Style) (program : Program) : Prop :=
  Stmt.PrintableBlock style program

/-- Tokens that can be spelled. -/
def AllSpellable (style : Style) (kinds : List TokenKind) : Prop :=
  ∀ kind ∈ kinds, Lexer.Spellable style kind

section

variable {style : Style}

@[simp] theorem allSpellable_nil : AllSpellable style [] := by
  simp [AllSpellable]

@[simp] theorem allSpellable_cons {kind : TokenKind} {kinds : List TokenKind} :
    AllSpellable style (kind :: kinds) ↔ Lexer.Spellable style kind ∧ AllSpellable style kinds := by
  simp [AllSpellable]

@[simp] theorem allSpellable_append {first second : List TokenKind} :
    AllSpellable style (first ++ second) ↔
      AllSpellable style first ∧ AllSpellable style second := by
  simp [AllSpellable, or_imp, forall_and]

@[simp] theorem spellable_symbol (mark : Symbol) : Lexer.Spellable style (.symbol mark) :=
  trivial

@[simp] theorem spellable_keyword (reserved : Keyword) :
    Lexer.Spellable style (.keyword reserved) :=
  trivial

@[simp] theorem spellable_text (value : String) : Lexer.Spellable style (.text value) :=
  trivial

@[simp] theorem spellable_newline : Lexer.Spellable style .newline :=
  trivial

@[simp] theorem spellable_word {name : String} :
    Lexer.Spellable style (.word name) ↔ Lexer.isName name = true :=
  Iff.rfl

@[simp] theorem allSpellable_inParentheses {kinds : List TokenKind} :
    AllSpellable style (inParentheses kinds) ↔ AllSpellable style kinds := by
  simp [inParentheses]

@[simp] theorem allSpellable_operand {rank : Nat} {level : Level} {kinds : List TokenKind} :
    AllSpellable style (operand rank level kinds) ↔ AllSpellable style kinds := by
  unfold operand
  by_cases hlooser : level.rank < rank <;> simp [hlooser]

@[simp] theorem allSpellable_inBraces {lines : List TokenKind} :
    AllSpellable style (inBraces lines) ↔ AllSpellable style lines := by
  simp [inBraces]

@[simp] theorem allSpellable_commaList {closing : Symbol} {items : List (List TokenKind)} :
    AllSpellable style (commaList closing items) ↔ ∀ item ∈ items, AllSpellable style item := by
  fun_induction commaList closing items with
  | case1 => simp
  | case2 item => simp
  | case3 item rest hrest ih => simp [ih]

theorem Literal.spellable {value : Literal} (h : value.Printable style) :
    Lexer.Spellable style value.kind := by
  cases value with
  | number value => exact h
  | boolean value => cases value <;> trivial
  | text value => trivial
  | null => trivial

theorem UnaryOp.spellable (op : UnaryOp) : Lexer.Spellable style op.kind := by
  cases op <;> trivial

theorem BinaryOp.spellable (op : BinaryOp) : Lexer.Spellable style op.kind := by
  cases op <;> trivial

theorem LogicalOp.spellable (op : LogicalOp) : Lexer.Spellable style op.kind := by
  cases op <;> trivial

mutual

theorem Expr.allSpellable (expr : Expr) (h : expr.Printable style) :
    AllSpellable style expr.kinds := by
  cases expr with
  | literal value line => simpa [Expr.kinds] using Literal.spellable h
  | var name line =>
      have hname : Lexer.isName name = true := h
      simp [Expr.kinds, hname]
  | unary op inner line => simp [Expr.kinds, op.spellable, inner.allSpellable h]
  | binary op left right line =>
      simp [Expr.kinds, op.spellable, left.allSpellable h.1, right.allSpellable h.2]
  | logical op left right line =>
      simp [Expr.kinds, op.spellable, left.allSpellable h.1, right.allSpellable h.2]
  | list elements line => simpa [Expr.kinds] using Expr.allSpellable_all elements h
  | record entries line => simpa [Expr.kinds] using Expr.allSpellable_entries entries h
  | index target position line =>
      simp [Expr.kinds, target.allSpellable h.1, position.allSpellable h.2]
  | property target name line =>
      have hname : Lexer.isName name = true := h.2
      simp [Expr.kinds, target.allSpellable h.1, hname]
  | call name arguments line =>
      have hname : Lexer.isName name = true := h.1
      simpa [Expr.kinds, hname] using Expr.allSpellable_all arguments h.2

theorem Expr.allSpellable_all (exprs : List Expr) (h : Expr.PrintableAll style exprs) :
    ∀ kinds ∈ Expr.kindsOfAll exprs, AllSpellable style kinds := by
  cases exprs with
  | nil => simp [Expr.kindsOfAll]
  | cons expr rest =>
      simpa [Expr.kindsOfAll, expr.allSpellable h.1] using Expr.allSpellable_all rest h.2

theorem Expr.allSpellable_entries (entries : List (String × Expr))
    (h : Expr.PrintableEntries style entries) :
    ∀ kinds ∈ Expr.kindsOfEntries entries, AllSpellable style kinds := by
  cases entries with
  | nil => simp [Expr.kindsOfEntries]
  | cons entry rest =>
      obtain ⟨key, expr⟩ := entry
      simpa [Expr.kindsOfEntries, expr.allSpellable h.1] using Expr.allSpellable_entries rest h.2

end

theorem Expr.allSpellable_step {step : Option Expr} (h : Expr.PrintableOption style step) :
    AllSpellable style (Expr.kindsOfStep step) := by
  cases step with
  | none => simp [Expr.kindsOfStep]
  | some step => simpa [Expr.kindsOfStep] using step.allSpellable h

theorem Expr.allSpellable_option {value : Option Expr} (h : Expr.PrintableOption style value) :
    AllSpellable style (Expr.kindsOfOption value) := by
  cases value with
  | none => simp [Expr.kindsOfOption]
  | some value => exact value.allSpellable h

mutual

theorem Stmt.allSpellable (statement : Stmt) (h : statement.Printable style) :
    AllSpellable style statement.kinds := by
  cases statement with
  | declare name value line =>
      have hname : Lexer.isName name = true := h.1
      simpa [Stmt.kinds, hname] using value.allSpellable h.2
  | print value line =>
      simpa [Stmt.kinds] using value.allSpellable h
  | assign name value line =>
      have hname : Lexer.isName name = true := h.1
      simpa [Stmt.kinds, hname] using value.allSpellable h.2
  | assignIndex name position value line =>
      obtain ⟨hname, hposition, hvalue⟩ := h
      simp [Stmt.kinds, hname, position.allSpellable hposition, value.allSpellable hvalue]
  | assignProperty name property value line =>
      obtain ⟨hname, hproperty, hvalue⟩ := h
      simp [Stmt.kinds, hname, hproperty, value.allSpellable hvalue]
  | branch condition yes no line =>
      obtain ⟨hcondition, hyes, hno⟩ := h
      simp [Stmt.kinds, condition.allSpellable hcondition, Stmt.allSpellable_block yes hyes,
        Stmt.allSpellable_else no hno]
  | loop condition body line =>
      obtain ⟨hcondition, hbody⟩ := h
      simp [Stmt.kinds, condition.allSpellable hcondition, Stmt.allSpellable_block body hbody]
  | range counter first bound step body line =>
      obtain ⟨hcounter, hfirst, hbound, hstep, hbody⟩ := h
      simp [Stmt.kinds, hcounter, first.allSpellable hfirst, bound.allSpellable hbound,
        Expr.allSpellable_step hstep, Stmt.allSpellable_block body hbody]
  | define name parameters body line =>
      obtain ⟨hname, hparameters, hbody⟩ := h
      simpa [Stmt.kinds, hname, Stmt.allSpellable_block body hbody] using hparameters
  | giveBack value line => simpa [Stmt.kinds] using Expr.allSpellable_option h
  | leave line => simp [Stmt.kinds]
  | proceed line => simp [Stmt.kinds]
  | attempt body errorName handler line =>
      obtain ⟨hbody, hname, hhandler⟩ := h
      simp [Stmt.kinds, hname, Stmt.allSpellable_block body hbody,
        Stmt.allSpellable_block handler hhandler]
  | expression value line => exact value.allSpellable h.2

theorem Stmt.allSpellable_block (block : List Stmt) (h : Stmt.PrintableBlock style block) :
    AllSpellable style (Stmt.kindsOfBlock block) := by
  cases block with
  | nil => simp [Stmt.kindsOfBlock]
  | cons statement rest =>
      simp [Stmt.kindsOfBlock, statement.allSpellable h.1, Stmt.allSpellable_block rest h.2]

theorem Stmt.allSpellable_else (block : Option (List Stmt)) (h : Stmt.PrintableElse style block) :
    AllSpellable style (Stmt.kindsOfElse block) := by
  cases block with
  | none => simp [Stmt.kindsOfElse]
  | some block =>
      cases block with
      | nil => simp [Stmt.kindsOfElse]
      | cons statement rest =>
          have hstatement := statement.allSpellable h.1
          have hrest := Stmt.allSpellable_block rest h.2
          unfold Stmt.kindsOfElse
          split <;> simp [hstatement, hrest]

end

end

end Bhasha
