import Bhasha.Proofs.Grammar.Statement
import Bhasha.Proofs.Program.Lines
import Bhasha.Proofs.Token.Join

/-!
# Phrases in another place

The grammar looks at the kinds of tokens only, and at no token behind a phrase, with one exception:
a return without a value has to be followed by the end of its line, its block or the input.  So a
phrase stays one when its tokens are carried to other lines and other tokens are put behind the
last one, if a return may be followed by these.  The lines of its tree change as those of its
tokens do.
-/

namespace Bhasha

namespace Grammar

/-- Tokens that are carried to other lines, in front of further tokens. -/
def carried (label : Nat → Nat) (tail tokens : List Token) : List Token :=
  tokens.map (Token.relabel label) ++ tail

/-- A piece that is carried along with its tokens. -/
def Piece.carried {α : Type} (label : Nat → Nat) (tail : List Token) (change : α → α)
    (piece : Piece α) : Piece α :=
  ⟨Grammar.carried label tail piece.start, Grammar.carried label tail piece.stop,
    change piece.tree⟩

variable {α : Type} {label : Nat → Nat} {tail input rest : List Token} {change : α → α}

theorem map_tree_carried (pieces : List (Piece α)) :
    (pieces.map (Piece.carried label tail change)).map Piece.tree =
      (pieces.map Piece.tree).map change := by
  rw [List.map_map, List.map_map]
  rfl

theorem Newlines.carried (h : Newlines input rest) :
    Newlines (carried label tail input) (carried label tail rest) := by
  induction h with
  | none => exact .none _
  | more _ ih => exact .more ih

theorem Separated.carried {closing : Symbol} {pieces : List (Piece α)}
    (h : Separated closing input pieces rest) :
    Separated closing (carried label tail input) (pieces.map (Piece.carried label tail change))
      (carried label tail rest) := by
  induction h with
  | close hnewlines => exact .close hnewlines.carried
  | last hstart hstop => exact .last hstart.carried hstop.carried
  | more hstart hstop _ ih => exact .more hstart.carried hstop.carried ih

theorem Lines.carried {pieces : List (Piece α)} (h : Lines input pieces rest) :
    Lines (carried label tail input) (pieces.map (Piece.carried label tail change))
      (carried label tail rest) := by
  induction h with
  | done hnewlines => exact .done hnewlines.carried
  | more hstart _ ih => exact .more hstart.carried ih

theorem Braced.carried {pieces : List (Piece α)} (h : Braced input pieces rest) :
    Braced (carried label tail input) (pieces.map (Piece.carried label tail change))
      (carried label tail rest) := by
  obtain ⟨opening, closing, inner, hnewlines, hlines⟩ := h
  exact ⟨_, _, _, hnewlines.carried, hlines.carried⟩

theorem Key.carried {key : String} (h : Key input key rest) :
    Key (carried label tail input) key (carried label tail rest) := by
  cases h with
  | word hnewlines => exact .word hnewlines.carried
  | text hnewlines => exact .text hnewlines.carried

theorem relabel_of_join? {level : Level} {kind : TokenKind} {join : Expr → Expr → Nat → Expr}
    (h : level.join? kind = some join) (left right : Expr) (line : Nat) :
    (join left right line).relabel label =
      join (left.relabel label) (right.relabel label) (label line) := by
  unfold Level.join? at h
  split at h <;> cases h <;> rfl

/-- An entry that is carried along with its tokens. -/
def Entry.carried (label : Nat → Nat) (tail : List Token) (entry : Entry) : Entry :=
  ⟨Grammar.carried label tail entry.start, entry.key, Grammar.carried label tail entry.middle,
    entry.value.relabel label, Grammar.carried label tail entry.stop⟩

/-- Nothing is asked of what follows an expression. -/
theorem Expression.carried {level : Level} {tree : Expr} (h : Expression level input rest tree) :
    Expression level (carried label tail input) (carried label tail rest)
      (tree.relabel label) := by
  induction h with
  | tighter htighter _ ih => exact .tighter htighter ih
  | joined hjoin htighter _ _ ihleft ihright =>
      rw [relabel_of_join? hjoin]
      exact .joined hjoin htighter ihleft ihright
  | sign hsign _ ih => exact .sign hsign ih
  | index _ _ ihtarget ihplace => exact .index ihtarget ihplace
  | property _ ih => exact .property ih
  | constant hconstant => exact .constant hconstant
  | var => exact .var
  | call hseparated _ ih =>
      rw [Expr.relabel, Expr.relabelAll_eq_map, ← map_tree_carried]
      exact .call hseparated.carried (List.forall_mem_map.mpr ih)
  | list hseparated _ ih =>
      rw [Expr.relabel, Expr.relabelAll_eq_map, ← map_tree_carried]
      exact .list hseparated.carried (List.forall_mem_map.mpr ih)
  | @record _ _ _ entries hseparated hkeys _ ih =>
      have htrees : Expr.relabelEntries label (entries.map fun entry => (entry.key, entry.value)) =
          (entries.map (Entry.carried label tail)).map fun entry => (entry.key, entry.value) := by
        rw [Expr.relabelEntries_eq_map, List.map_map, List.map_map]
        rfl
      have hpieces : (entries.map Entry.piece).map
            (Piece.carried label tail fun entry => (entry.1, entry.2.relabel label)) =
          (entries.map (Entry.carried label tail)).map Entry.piece := by
        rw [List.map_map, List.map_map]
        rfl
      rw [Expr.relabel, htrees]
      refine .record (hpieces ▸ hseparated.carried) ?_ (List.forall_mem_map.mpr ih)
      exact List.forall_mem_map.mpr fun entry hentry => (hkeys entry hentry).carried
  | parentheses _ ih => exact .parentheses ih

theorem Parenthesized.carried {tree : Expr} (h : Parenthesized input rest tree) :
    Parenthesized (carried label tail input) (carried label tail rest) (tree.relabel label) := by
  obtain ⟨opening, closing, inner, rfl, hinner⟩ := h
  exact ⟨_, _, _, rfl, hinner.carried⟩

theorem RangeStep.carried {step : Option Expr} (h : RangeStep input rest step) :
    RangeStep (carried label tail input) (carried label tail rest)
      (Expr.relabelOption label step) := by
  cases h with
  | none => exact .none
  | some hstep => exact .some hstep.carried

theorem parameters_carried {closing : Symbol} {names : List String}
    (h : CommaList closing Word input rest names) :
    CommaList closing Word (carried label tail input) (carried label tail rest) names := by
  obtain ⟨pieces, hseparated, hwords, rfl⟩ := h
  refine ⟨pieces.map (Piece.carried label tail id), hseparated.carried, ?_, ?_⟩
  · refine List.forall_mem_map.mpr fun piece hpiece => ?_
    obtain ⟨position, hword⟩ := hwords piece hpiece
    exact ⟨position.relabel label, by rw [Piece.carried, hword]; rfl⟩
  · rw [map_tree_carried, List.map_id]

theorem relabelBlock_map_tree (pieces : List (Piece Stmt)) :
    Stmt.relabelBlock label (pieces.map Piece.tree) =
      (pieces.map (Piece.carried label tail (Stmt.relabel label))).map Piece.tree := by
  rw [map_tree_carried]
  induction pieces with
  | nil => rfl
  | cons piece pieces ih =>
      rw [List.map_cons, List.map_cons, ← ih]
      rfl

theorem EndsReturn.carried (h : EndsReturn rest) (htail : EndsReturn tail) :
    EndsReturn (carried label tail rest) := by
  cases rest with
  | nil => exact htail
  | cons token rest => exact h

/-- A return may have nothing behind it, so what is put behind it has to end it. -/
theorem Statement.carried {form : Form} {tree : Stmt} (h : Statement form input rest tree)
    (htail : EndsReturn tail) :
    Statement form (carried label tail input) (carried label tail rest) (tree.relabel label) := by
  induction h with
  | bare _ ih => exact .bare ih
  | opened _ ih => exact .opened ih
  | print hvalue => exact .print hvalue.carried
  | declare hvalue => exact .declare hvalue.carried
  | branch hcondition hyes _ ih =>
      rw [Stmt.relabel, relabelBlock_map_tree]
      exact .branch hcondition.carried hyes.carried (List.forall_mem_map.mpr ih)
  | branchElse hcondition hyes _ hnewlines hno _ ihyes ihno =>
      rw [Stmt.relabel, Stmt.relabelOption, relabelBlock_map_tree, relabelBlock_map_tree]
      exact .branchElse hcondition.carried hyes.carried (List.forall_mem_map.mpr ihyes)
        hnewlines.carried hno.carried (List.forall_mem_map.mpr ihno)
  | branchElseIf hcondition hyes _ hnewlines _ ihyes ihno =>
      rw [Stmt.relabel, Stmt.relabelOption, relabelBlock_map_tree]
      exact .branchElseIf hcondition.carried hyes.carried (List.forall_mem_map.mpr ihyes)
        hnewlines.carried ihno
  | loop hcondition hbody _ ih =>
      rw [Stmt.relabel, relabelBlock_map_tree]
      exact .loop hcondition.carried hbody.carried (List.forall_mem_map.mpr ih)
  | range hfirst hbound hstep hbody _ ih =>
      rw [Stmt.relabel, relabelBlock_map_tree]
      exact .range hfirst.carried hbound.carried hstep.carried hbody.carried
        (List.forall_mem_map.mpr ih)
  | define hparameters hbody _ ih =>
      rw [Stmt.relabel, relabelBlock_map_tree]
      exact .define (parameters_carried hparameters) hbody.carried (List.forall_mem_map.mpr ih)
  | giveBack hends => exact .giveBack (hends.carried htail)
  | giveBackValue hvalue => exact .giveBackValue hvalue.carried
  | leave => exact .leave
  | proceed => exact .proceed
  | attempt hbody _ hnewlines hhandler _ ihbody ihhandler =>
      rw [Stmt.relabel, relabelBlock_map_tree, relabelBlock_map_tree]
      exact .attempt hbody.carried (List.forall_mem_map.mpr ihbody) hnewlines.carried
        hhandler.carried (List.forall_mem_map.mpr ihhandler)
  | assign hvalue => exact .assign hvalue.carried
  | assignIndex hplace hvalue => exact .assignIndex hplace.carried hvalue.carried
  | assignProperty hvalue => exact .assignProperty hvalue.carried
  | call hcall => exact .call hcall.carried

/-- A program that is carried along is on the lines in front of what is put behind it. -/
theorem Program.carried {program : Bhasha.Program} (h : Program input program)
    (htail : EndsReturn tail) :
    ∃ pieces : List (Piece Stmt),
      Lines (carried label tail input) pieces tail ∧
        (∀ piece ∈ pieces, Statement .any piece.start piece.stop piece.tree) ∧
        program.relabel label = pieces.map Piece.tree := by
  obtain ⟨pieces, hlines, hphrases, rfl⟩ := h
  refine ⟨pieces.map (Piece.carried label tail (Stmt.relabel label)), hlines.carried, ?_, ?_⟩
  · exact List.forall_mem_map.mpr fun piece hpiece => (hphrases piece hpiece).carried htail
  · rw [Bhasha.Program.relabel, relabelBlock_map_tree]

end Grammar

end Bhasha
