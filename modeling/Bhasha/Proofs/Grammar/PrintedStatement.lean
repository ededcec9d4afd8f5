import Bhasha.Proofs.Grammar.PrintedExpression
import Bhasha.Proofs.Program.Printable

/-!
# Printed statements are statements

A printed statement stands in front of a newline, so a return without a value is not read on into
the next line.  An alternative that goes on with another branch is derived without braces, which
is the same tree.
-/

namespace Bhasha

namespace Grammar

open Printer

/-- A phrase spells the statement, up to the lines. -/
def DerivesStatement (statement : Stmt) (input rest : List Token) : Prop :=
  ∃ tree, Statement .any input rest tree ∧
    tree.relabel (fun _ => 0) = statement.relabel fun _ => 0

/-- Wherever it is printed in front of a newline, the statement is spelled by a phrase. -/
def IsDerivedStatement (statement : Stmt) : Prop :=
  ∀ input rest, front rest = .newline → Prints statement.kinds input rest →
    DerivesStatement statement input rest

/-- Statements on lines of their own. -/
theorem lines_of_derived {block : List Stmt}
    (hblock : ∀ statement ∈ block, IsDerivedStatement statement) {input rest : List Token}
    (hprints : Prints (Stmt.kindsOfBlock block) input rest) :
    ∃ pieces : List (Piece Stmt), Lines input pieces rest ∧
      (∀ piece ∈ pieces, Statement .any piece.start piece.stop piece.tree) ∧
      Stmt.relabelBlock (fun _ => 0) (pieces.map Piece.tree) =
        Stmt.relabelBlock (fun _ => 0) block := by
  induction block generalizing input with
  | nil =>
      simp only [Stmt.kindsOfBlock, prints_nil] at hprints
      exact ⟨[], hprints ▸ .done (.none _), by simp, rfl⟩
  | cons statement others ih =>
      simp only [Stmt.kindsOfBlock, prints_append, prints_cons] at hprints
      obtain ⟨_, hstatement, position, middle, rfl, hothers⟩ := hprints
      -- The newline behind the statement belongs to the lines that follow.
      obtain ⟨tree, hphrase, htree⟩ := hblock statement (by simp) _ _ rfl hstatement
      obtain ⟨pieces, hlines, hphrases, htrees⟩ :=
        ih (fun other hother => hblock other (by simp [hother])) hothers
      refine ⟨⟨input, ⟨.newline, position⟩ :: middle, tree⟩ :: pieces, ?_, ?_, ?_⟩
      · exact .more (.none _) (hlines.of_newlines (.more (.none middle)))
      · simpa using And.intro hphrase hphrases
      · simp only [List.map_cons, Stmt.relabelBlock, htree, htrees]

/-- A block in braces. -/
theorem braced_of_derived {block : List Stmt}
    (hblock : ∀ statement ∈ block, IsDerivedStatement statement) {input rest : List Token}
    (hprints : Prints (inBraces (Stmt.kindsOfBlock block)) input rest) :
    ∃ pieces : List (Piece Stmt), Braced input pieces rest ∧
      (∀ piece ∈ pieces, Statement .any piece.start piece.stop piece.tree) ∧
      Stmt.relabelBlock (fun _ => 0) (pieces.map Piece.tree) =
        Stmt.relabelBlock (fun _ => 0) block := by
  simp only [inBraces, prints_cons, prints_append, prints_nil] at hprints
  obtain ⟨opening, _, rfl, position, _, rfl, _, hlines, closing, _, rfl, rfl⟩ := hprints
  obtain ⟨pieces, hlines, hphrases, htrees⟩ := lines_of_derived hblock hlines
  exact ⟨pieces, ⟨opening, closing, _, .none _, hlines.of_newlines (.more (.none _))⟩, hphrases,
    htrees⟩

/-- The step of a range, which may be missing. -/
theorem rangeStep_of_prints {step : Option Expr} {input rest : List Token}
    (hprints : Prints (Expr.kindsOfStep step) input rest) :
    ∃ tree, RangeStep input rest tree ∧
      Expr.relabelOption (fun _ => 0) tree = Expr.relabelOption (fun _ => 0) step := by
  cases step with
  | none =>
      simp only [Expr.kindsOfStep, prints_nil] at hprints
      exact ⟨none, hprints ▸ .none, rfl⟩
  | some step =>
      simp only [Expr.kindsOfStep, prints_cons] at hprints
      obtain ⟨position, _, rfl, hstep⟩ := hprints
      obtain ⟨tree, hphrase, htree⟩ := (isDerived step).disjunction hstep
      exact ⟨some tree, .some hphrase, by simp only [Expr.relabelOption, htree]⟩

/-- The parameters of a function. -/
theorem parameters_of_prints {parameters : List String} {input rest : List Token}
    (hprints : Prints
      (commaList .rightParen (parameters.map fun parameter => [.word parameter])) input rest) :
    CommaList .rightParen Word input rest parameters := by
  have hparameter : ∀ parameter ∈ parameters, ∀ {input rest : List Token},
      Prints [.word parameter] input rest →
      ∃ name, Word input rest name ∧ id name = id parameter := by
    intro parameter _ input rest h
    simp only [prints_cons, prints_nil] at h
    obtain ⟨position, _, rfl, rfl⟩ := h
    exact ⟨parameter, ⟨position, rfl⟩, rfl⟩
  obtain ⟨pieces, hseparated, hwords, htrees⟩ := separated_of_prints hparameter hprints
  simp only [List.map_id] at htrees
  exact ⟨pieces, hseparated, hwords, htrees.symm⟩

/-- The two ways to spell an alternative: by a block, or by another branch. -/
inductive Alternative (block : List Stmt) (input rest : List Token) : Prop where
  | braced {pieces : List (Piece Stmt)} :
      Braced input pieces rest →
      (∀ piece ∈ pieces, Statement .any piece.start piece.stop piece.tree) →
      Stmt.relabelBlock (fun _ => 0) (pieces.map Piece.tree) =
        Stmt.relabelBlock (fun _ => 0) block →
      Alternative block input rest
  | branch {again : Position} {others : List Token} {tree : Stmt} :
      input = ⟨.keyword .yadi, again⟩ :: others →
      Statement .unopened (⟨.keyword .yadi, again⟩ :: others) rest tree →
      Stmt.relabelBlock (fun _ => 0) [tree] = Stmt.relabelBlock (fun _ => 0) block →
      Alternative block input rest

theorem alternative_of_prints {block : List Stmt}
    (hblock : ∀ statement ∈ block, IsDerivedStatement statement) {input rest : List Token}
    (hrest : front rest = .newline)
    (hprints : Prints (Stmt.kindsOfElse (some block)) input rest) :
    ∃ position behind, input = ⟨.keyword .anya, position⟩ :: behind ∧
      Alternative block behind rest := by
  cases block with
  | nil =>
      simp only [Stmt.kindsOfElse, prints_cons] at hprints
      obtain ⟨position, behind, rfl, hbraces⟩ := hprints
      obtain ⟨pieces, hbraced, hphrases, htrees⟩ :=
        @braced_of_derived [] hblock behind rest hbraces
      exact ⟨position, behind, rfl, .braced hbraced hphrases htrees⟩
  | cons statement others =>
      simp only [Stmt.kindsOfElse, prints_cons] at hprints
      obtain ⟨position, behind, rfl, hbehind⟩ := hprints
      refine ⟨position, behind, rfl, ?_⟩
      by_cases hchain : (statement.isBranch && others.isEmpty) = true
      · rw [if_pos hchain] at hbehind
        obtain ⟨tree, hphrase, htree⟩ := hblock statement (by simp) behind rest hrest hbehind
        simp only [Bool.and_eq_true, List.isEmpty_iff] at hchain
        obtain ⟨hbranch, rfl⟩ := hchain
        -- The grammar asks for a branch without an opening word, and the word that the tokens
        -- start with tells that it has none.
        cases statement with
        | branch condition yes no line =>
            simp only [Stmt.kinds, prints_cons] at hbehind
            obtain ⟨again, middle, rfl, -⟩ := hbehind
            exact .branch rfl hphrase.unopened_of_yadi
              (by simp only [Stmt.relabelBlock, htree])
        | _ => cases hbranch
      · rw [if_neg hchain] at hbehind
        obtain ⟨pieces, hbraced, hphrases, htrees⟩ :=
          @braced_of_derived (statement :: others) hblock behind rest hbehind
        exact .braced hbraced hphrases htrees

theorem derives_branch {condition : Expr} {yes : List Stmt} {no : Option (List Stmt)} {line : Nat}
    (hyes : ∀ statement ∈ yes, IsDerivedStatement statement)
    (hno : ∀ block ∈ no, ∀ statement ∈ block, IsDerivedStatement statement)
    {input rest : List Token} (hrest : front rest = .newline)
    (hprints : Prints (Stmt.branch condition yes no line).kinds input rest) :
    DerivesStatement (.branch condition yes no line) input rest := by
  simp only [Stmt.kinds, prints_cons, prints_append] at hprints
  obtain ⟨position, _, rfl, middle, hcondition, behind, hbraces, helse⟩ := hprints
  obtain ⟨test, htest, htestTree⟩ := derives_inParentheses (isDerived condition) hcondition
  obtain ⟨pieces, hbraced, hphrases, htrees⟩ := braced_of_derived hyes hbraces
  cases no with
  | none =>
      simp only [Stmt.kindsOfElse, prints_nil] at helse
      rw [helse] at hbraced
      exact ⟨_, .bare (.branch htest hbraced hphrases),
        by simp only [Stmt.relabel, htestTree, htrees, Stmt.relabelOption]⟩
  | some block =>
      obtain ⟨other, alternative, rfl, halternative⟩ :=
        alternative_of_prints (hno block rfl) hrest helse
      cases halternative with
      | braced hothers hotherPhrases hotherTrees =>
          exact ⟨_, .bare (.branchElse htest hbraced hphrases (.none _) hothers hotherPhrases),
            by simp only [Stmt.relabel, htestTree, htrees, Stmt.relabelOption, hotherTrees]⟩
      | branch hinput hphrase hotherTrees =>
          subst hinput
          exact ⟨_, .bare (.branchElseIf htest hbraced hphrases (.none _) hphrase),
            by simp only [Stmt.relabel, htestTree, htrees, Stmt.relabelOption, hotherTrees]⟩

theorem endsReturn_of_newline {rest : List Token} (h : front rest = .newline) :
    EndsReturn rest := by
  cases rest with
  | nil => cases h
  | cons token others => exact .inl h

/-- An expression that stands for a statement is derived as a call. -/
theorem derives_call {name : String} {arguments : List Expr} {found line : Nat}
    {input rest : List Token} (hprints : Prints (Expr.call name arguments found).kinds input rest) :
    DerivesStatement (.expression (.call name arguments found) line) input rest := by
  simp only [Expr.kinds, prints_cons] at hprints
  obtain ⟨position, _, rfl, opening, _, rfl, harguments⟩ := hprints
  obtain ⟨pieces, hseparated, hphrases, htrees⟩ :=
    separated_of_derived (isDerived_all arguments) harguments
  exact ⟨_, .bare (.call (.call hseparated hphrases)),
    by simp only [Stmt.relabel, Expr.relabel, htrees]⟩

mutual

/-- Every statement that can be printed is derived from its tokens. -/
theorem isDerived_statement {style : Style} (statement : Stmt) (h : statement.Printable style) :
    IsDerivedStatement statement := by
  intro input rest hrest hprints
  cases statement with
  | declare name value line =>
      simp only [Stmt.kinds, prints_cons] at hprints
      obtain ⟨position, _, rfl, yo, _, rfl, ho, _, rfl, word, _, rfl, sign, _, rfl, hvalue⟩ :=
        hprints
      obtain ⟨tree, hphrase, htree⟩ := (isDerived value).disjunction hvalue
      exact ⟨_, .declare hphrase, by simp only [Stmt.relabel, htree]⟩
  | print value line =>
      simp only [Stmt.kinds, prints_cons] at hprints
      obtain ⟨position, _, rfl, verb, _, rfl, hvalue⟩ := hprints
      obtain ⟨tree, hphrase, htree⟩ := derives_inParentheses (isDerived value) hvalue
      exact ⟨_, .print hphrase, by simp only [Stmt.relabel, htree]⟩
  | assign name value line =>
      simp only [Stmt.kinds, prints_cons] at hprints
      obtain ⟨position, _, rfl, sign, _, rfl, hvalue⟩ := hprints
      obtain ⟨tree, hphrase, htree⟩ := (isDerived value).disjunction hvalue
      exact ⟨_, .bare (.assign hphrase), by simp only [Stmt.relabel, htree]⟩
  | assignIndex name place value line =>
      simp only [Stmt.kinds, prints_cons, prints_append] at hprints
      obtain ⟨position, _, rfl, opening, _, rfl, _, hplace, closing, _, rfl, sign, _, rfl,
        hvalue⟩ := hprints
      obtain ⟨first, hfirst, hfirstTree⟩ := (isDerived place).disjunction hplace
      obtain ⟨second, hsecond, hsecondTree⟩ := (isDerived value).disjunction hvalue
      exact ⟨_, .bare (.assignIndex hfirst hsecond),
        by simp only [Stmt.relabel, hfirstTree, hsecondTree]⟩
  | assignProperty name property value line =>
      simp only [Stmt.kinds, prints_cons] at hprints
      obtain ⟨position, _, rfl, dot, _, rfl, word, _, rfl, sign, _, rfl, hvalue⟩ := hprints
      obtain ⟨tree, hphrase, htree⟩ := (isDerived value).disjunction hvalue
      exact ⟨_, .bare (.assignProperty hphrase), by simp only [Stmt.relabel, htree]⟩
  | branch condition yes no line =>
      obtain ⟨-, hyes, hno⟩ := h
      exact derives_branch (isDerived_block yes hyes) (isDerived_else no hno) hrest hprints
  | loop condition body line =>
      simp only [Stmt.kinds, prints_cons, prints_append] at hprints
      obtain ⟨position, _, rfl, middle, hcondition, hbraces⟩ := hprints
      obtain ⟨test, htest, htestTree⟩ := derives_inParentheses (isDerived condition) hcondition
      obtain ⟨pieces, hbraced, hphrases, htrees⟩ :=
        braced_of_derived (isDerived_block body h.2) hbraces
      exact ⟨_, .bare (.loop htest hbraced hphrases),
        by simp only [Stmt.relabel, htestTree, htrees]⟩
  | range counter first bound step body line =>
      obtain ⟨-, -, -, -, hbody⟩ := h
      simp only [Stmt.kinds, prints_cons, prints_append] at hprints
      obtain ⟨position, _, rfl, opening, _, rfl, word, _, rfl, dekhi, _, rfl, _, hfirst, samma, _,
        rfl, _, hbound, _, hstep, closing, _, rfl, hbraces⟩ := hprints
      obtain ⟨start, hstart, hstartTree⟩ := (isDerived first).disjunction hfirst
      obtain ⟨stop, hstop, hstopTree⟩ := (isDerived bound).disjunction hbound
      obtain ⟨width, hwidth, hwidthTree⟩ := rangeStep_of_prints hstep
      obtain ⟨pieces, hbraced, hphrases, htrees⟩ :=
        braced_of_derived (isDerived_block body hbody) hbraces
      exact ⟨_, .bare (.range hstart hstop hwidth hbraced hphrases),
        by simp only [Stmt.relabel, hstartTree, hstopTree, hwidthTree, htrees]⟩
  | define name parameters body line =>
      simp only [Stmt.kinds, prints_cons, prints_append] at hprints
      obtain ⟨position, _, rfl, word, _, rfl, opening, _, rfl, _, hparameters, hbraces⟩ := hprints
      obtain ⟨pieces, hbraced, hphrases, htrees⟩ :=
        braced_of_derived (isDerived_block body h.2.2) hbraces
      exact ⟨_, .bare (.define (parameters_of_prints hparameters) hbraced hphrases),
        by simp only [Stmt.relabel, htrees]⟩
  | giveBack value line =>
      simp only [Stmt.kinds, prints_cons] at hprints
      obtain ⟨position, _, rfl, hvalue⟩ := hprints
      cases value with
      | none =>
          simp only [Expr.kindsOfOption, prints_nil] at hvalue
          subst hvalue
          exact ⟨_, .bare (.giveBack (endsReturn_of_newline hrest)), rfl⟩
      | some value =>
          obtain ⟨tree, hphrase, htree⟩ := (isDerived value).disjunction hvalue
          exact ⟨_, .bare (.giveBackValue hphrase),
            by simp only [Stmt.relabel, Expr.relabelOption, htree]⟩
  | leave line =>
      simp only [Stmt.kinds, prints_cons, prints_nil] at hprints
      obtain ⟨position, _, rfl, rfl⟩ := hprints
      exact ⟨_, .bare .leave, rfl⟩
  | proceed line =>
      simp only [Stmt.kinds, prints_cons, prints_nil] at hprints
      obtain ⟨position, _, rfl, rfl⟩ := hprints
      exact ⟨_, .bare .proceed, rfl⟩
  | attempt body errorName handler line =>
      obtain ⟨hbody, -, hhandler⟩ := h
      simp only [Stmt.kinds, prints_cons, prints_append] at hprints
      obtain ⟨position, _, rfl, _, hbraces, samatan, _, rfl, opening, _, rfl, word, _, rfl,
        closing, _, rfl, hothers⟩ := hprints
      obtain ⟨pieces, hbraced, hphrases, htrees⟩ :=
        braced_of_derived (isDerived_block body hbody) hbraces
      obtain ⟨others, hotherBraced, hotherPhrases, hotherTrees⟩ :=
        braced_of_derived (isDerived_block handler hhandler) hothers
      exact ⟨_, .bare (.attempt hbraced hphrases (.none _) hotherBraced hotherPhrases),
        by simp only [Stmt.relabel, htrees, hotherTrees]⟩
  | expression value line =>
      cases value with
      | call name arguments found => exact derives_call hprints
      | _ => exact absurd h.1 Bool.false_ne_true

theorem isDerived_block {style : Style} (block : List Stmt)
    (h : Stmt.PrintableBlock style block) :
    ∀ statement ∈ block, IsDerivedStatement statement := by
  cases block with
  | nil => simp
  | cons first others =>
      intro statement hmem
      rcases List.mem_cons.mp hmem with hfirst | hothers
      · rw [hfirst]
        exact isDerived_statement first h.1
      · exact isDerived_block others h.2 statement hothers

theorem isDerived_else {style : Style} (no : Option (List Stmt))
    (h : Stmt.PrintableElse style no) :
    ∀ block ∈ no, ∀ statement ∈ block, IsDerivedStatement statement := by
  cases no with
  | none => simp
  | some block =>
      intro found hfound
      cases hfound
      exact isDerived_block block h

end

/-- The grammar derives a printed program, up to the lines, whatever the positions of its tokens
are. -/
theorem program_of_kinds {style : Style} {program : Bhasha.Program}
    (h : program.Printable style) {tokens : List Token}
    (htokens : tokens.map Token.kind = program.kinds) :
    ∃ parsed, Program tokens parsed ∧
      parsed.relabel (fun _ => 0) = program.relabel fun _ => 0 := by
  have hprints : Prints (Stmt.kindsOfBlock program) tokens [] :=
    ⟨tokens, htokens, (List.append_nil tokens).symm⟩
  obtain ⟨pieces, hlines, hphrases, htrees⟩ :=
    lines_of_derived (isDerived_block program h) hprints
  exact ⟨pieces.map Piece.tree, ⟨pieces, hlines, hphrases, rfl⟩, htrees⟩

end Grammar

end Bhasha
