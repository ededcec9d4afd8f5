import Bhasha.Parser.Statement
import Bhasha.Proofs.Parser.ExpressionCompleteness

/-!
# Whatever is grammatical is read as a statement

Behind a statement stands the next one, or its block or the input ends, so an expression at its
end is over there.  A branching also reads the newlines behind it.  Hence what a statement leaves
over is the rest up to some newlines, and the induction on derivations carries it in this form;
the statements around it do not see the difference.
-/

namespace Bhasha

namespace Parser

open Grammar

/-- The parser for the statements of a form, in terms of the statements inside them. -/
def ofForm : Form → Parser Stmt → Parser Stmt
  | .any, statement => statementOf statement
  | .unopened, statement => unopened statement

/-- A parser reads a statement, and maybe newlines behind it. -/
def ReadsTrailed (parser : Parser Stmt) (input rest : List Token) (tree : Stmt) : Prop :=
  ∃ behind, Newlines rest behind ∧ Reads parser input behind tree

theorem Reads.trailed {parser : Parser Stmt} {input rest : List Token} {tree : Stmt}
    (h : Reads parser input rest tree) : ReadsTrailed parser input rest tree :=
  ⟨rest, .none rest, h⟩

/-- What reading a block needs of its statements: they are read where a statement may end. -/
structure ReadsStatement (statement : Parser Stmt) (piece : Piece Stmt) : Prop where
  consumes : Consumes piece.start piece.stop
  starts : startsStatement .any (front piece.start) = true
  reads : EndsStatement piece.stop → ReadsTrailed statement piece.start piece.stop piece.tree

theorem ReadsStatement.front_ne {statement : Parser Stmt} {piece : Piece Stmt}
    (h : ReadsStatement statement piece) {kind : TokenKind}
    (hkind : startsStatement .any kind = false) : front piece.start ≠ kind := by
  intro hfront
  have hstarts := h.starts
  rw [hfront, hkind] at hstarts
  cases hstarts

theorem endsProgram_of_starts {kind : TokenKind} (h : startsStatement .any kind = true) :
    endsProgram kind.toClass = false := by
  unfold startsStatement at h
  split at h <;> first | rfl | cases h

theorem endsBlock_of_starts {kind : TokenKind} (h : startsStatement .any kind = true) :
    endsBlock kind.toClass = false := by
  unfold startsStatement at h
  split at h <;> first | rfl | cases h

theorem endsStatement_of_lines {statement : Parser Stmt} {input rest : List Token}
    {pieces : List (Piece Stmt)} (hlines : Lines input pieces rest)
    (hpieces : ∀ piece ∈ pieces, ReadsStatement statement piece)
    (hrest : front rest = .endOfInput ∨ front rest = .symbol .rightBrace) :
    EndsStatement input := by
  cases hlines with
  | done hnewlines =>
      refine ⟨rest, hnewlines, ?_⟩
      rcases hrest with hend | hclosing
      · exact .inl hend
      · exact .inr (.inl hclosing)
  | @more _ _ piece _ hstart _ =>
      exact ⟨piece.start, hstart, .inr (.inr (hpieces piece (by simp)).starts)⟩

/-- Statements are read up to a token that ends them, also when some of the newlines in front of
them have been read already. -/
theorem reads_statementsUpTo {isEnd : TokenClass → Bool} {statement : Parser Stmt}
    {input rest : List Token} {pieces : List (Piece Stmt)}
    (hisEnd : ∀ kind, startsStatement .any kind = true → isEnd kind.toClass = false)
    (hrest : isEnd (front rest).toClass = true)
    (hfront : front rest = .endOfInput ∨ front rest = .symbol .rightBrace)
    (hlines : Lines input pieces rest)
    (hpieces : ∀ piece ∈ pieces, ReadsStatement statement piece) :
    ∀ start rounds, Newlines input start → start.length < rounds →
      Reads (statementsUpTo isEnd statement rounds) start rest (pieces.map Piece.tree) := by
  induction hlines with
  | @done input rest hnewlines =>
      intro start rounds hstart hrounds
      obtain ⟨rounds, rfl⟩ := Nat.exists_eq_add_one_of_ne_zero (Nat.ne_zero_of_lt hrounds)
      have hne : front rest ≠ .newline := by
        intro hnewline
        simp [hnewline] at hfront
      refine (reads_skipNewlines (hstart.of_same hnewlines hne) hne).bind ?_
      exact reads_if_true hrest (reads_pure rest _)
  | @more input rest piece pieces hnewlines hlines ih =>
      intro start rounds hstart hrounds
      obtain ⟨rounds, rfl⟩ := Nat.exists_eq_add_one_of_ne_zero (Nat.ne_zero_of_lt hrounds)
      have hpiece := hpieces piece (by simp)
      have hothers : ∀ other ∈ pieces, ReadsStatement statement other :=
        fun other hother => hpieces other (by simp [hother])
      have hne : front piece.start ≠ .newline := hpiece.front_ne rfl
      have hskip := hstart.of_same hnewlines hne
      obtain ⟨behind, hbehind, hread⟩ :=
        hpiece.reads (endsStatement_of_lines hlines hothers hfront)
      have hlength : behind.length < rounds := by
        have hstop := hbehind.suffix.length_le
        have hconsumes := hpiece.consumes.2
        have hstarts := hskip.suffix.length_le
        omega
      have hmore := ih hrest hfront hothers behind rounds hbehind hlength
      refine (reads_skipNewlines hskip hne).bind (reads_if_false (hisEnd _ hpiece.starts) ?_)
      exact hread.bind (hmore.bind (reads_pure rest _))

theorem reads_blockOf {statement : Parser Stmt} {input rest : List Token}
    {pieces : List (Piece Stmt)} (hbraced : Braced input pieces rest)
    (hpieces : ∀ piece ∈ pieces, ReadsStatement statement piece) :
    Reads (blockOf statement) input rest (pieces.map Piece.tree) := by
  obtain ⟨opening, closing, inner, hnewlines, hlines⟩ := hbraced
  have hbody : Reads (statements endsBlock statement) inner
      (⟨.symbol .rightBrace, closing⟩ :: rest) (pieces.map Piece.tree) := by
    refine (reads_remaining inner).bind ?_
    exact reads_statementsUpTo (fun _ => endsBlock_of_starts) rfl (.inr rfl) hlines hpieces inner _
      (.none inner) (Nat.lt_succ_self _)
  refine (reads_skipNewlines hnewlines (by simp)).bind (reads_symbol.bind ?_)
  exact hbody.bind (reads_symbol.bind (reads_pure rest _))

theorem reads_parenthesized {input rest : List Token} {tree : Expr}
    (h : Parenthesized input rest tree) : Reads parenthesized input rest tree := by
  obtain ⟨opening, closing, inner, rfl, hinner⟩ := h
  have hread := reads_expression hinner (ends_of_strength? rfl _)
  exact reads_symbol.bind (hread.bind (reads_symbol.bind (reads_pure rest _)))

theorem reads_rangeStep {position : Position} {input rest : List Token} {step : Option Expr}
    (h : RangeStep input (⟨.symbol .rightParen, position⟩ :: rest) step) :
    Reads rangeStep input (⟨.symbol .rightParen, position⟩ :: rest) step := by
  cases h with
  | none => exact (reads_isAt_false (by simp [TokenKind.toClass])).bind (reads_pure _ _)
  | some hstep =>
      have hread := reads_expression hstep (ends_of_strength? rfl _)
      refine (reads_isAt_true (by rfl)).bind ((reads_advance _ _).bind ?_)
      exact hread.bind (reads_pure _ _)

/-- The bound of a range ends at its step or at the closing parenthesis. -/
theorem RangeStep.ends {position : Position} {input rest : List Token} {step : Option Expr}
    (h : RangeStep input (⟨.symbol .rightParen, position⟩ :: rest) step) (level : Level) :
    Ends level input := by
  cases h with
  | none => exact ends_of_strength? rfl level
  | some => exact ends_of_strength? rfl level

theorem reads_parameters {input rest : List Token} {names : List String}
    (h : CommaList .rightParen Word input rest names) :
    Reads (commaList .rightParen word) input rest names := by
  obtain ⟨pieces, hseparated, hwords, rfl⟩ := h
  refine reads_commaList (by decide) hseparated ?_
  intro piece hpiece
  obtain ⟨position, hstart⟩ := hwords piece hpiece
  refine ⟨(hwords piece hpiece).consumes, by simp [hstart], by simp [hstart], fun _ => ?_⟩
  rw [hstart]
  exact reads_word

theorem endsReturn_of_endsReturn {rest : List Token} (h : EndsReturn rest) :
    endsReturn (front rest).toClass = true := by
  cases rest with
  | nil => rfl
  | cons token rest =>
      rcases h with h | h | h <;> rw [front_cons, h] <;> rfl

theorem endsReturn_of_expression {input rest : List Token} {tree : Expr}
    (h : Expression .disjunction input rest tree) :
    endsReturn (front input).toClass = false := by
  have hnewline : front input ≠ .newline := h.front_ne rfl rfl
  have hend : front input ≠ .endOfInput := h.front_ne rfl rfl
  have hclosing : front input ≠ .symbol .rightBrace := h.front_ne rfl rfl
  cases hfront : front input with
  | symbol mark =>
      cases mark with
      | rightBrace => exact absurd hfront hclosing
      | _ => rfl
  | newline => exact absurd hfront hnewline
  | endOfInput => exact absurd hfront hend
  | _ => rfl

theorem reads_returning {position : Position} {rest : List Token} (h : EndsReturn rest) :
    Reads returning (⟨.keyword .firta, position⟩ :: rest) rest (.giveBack none position.line) :=
  reads_keyword.bind (reads_if_true (endsReturn_of_endsReturn h) (reads_pure rest _))

theorem reads_returning_value {position : Position} {input rest : List Token} {value : Expr}
    (h : Expression .disjunction input rest value) (hends : Ends .disjunction rest) :
    Reads returning (⟨.keyword .firta, position⟩ :: input) rest
      (.giveBack (some value) position.line) := by
  have hread := reads_expression h hends
  refine reads_keyword.bind (reads_if_false (endsReturn_of_expression h) ?_)
  exact hread.bind (reads_pure rest _)

theorem reads_assign {position sign : Position} {name : String} {input rest : List Token}
    {value : Expr} (hvalue : Reads expression input rest value) :
    Reads naming (⟨.word name, position⟩ :: ⟨.symbol .assign, sign⟩ :: input) rest
      (.assign name value position.line) := by
  refine (reads_current _ _).bind (reads_word.bind ((reads_current _ _).bind ?_))
  exact (reads_advance _ _).bind (hvalue.bind (reads_pure rest _))

theorem reads_assignIndex {position opening closing sign : Position} {name : String}
    {input middle rest : List Token} {place value : Expr}
    (hplace : Reads expression input
      (⟨.symbol .rightBracket, closing⟩ :: ⟨.symbol .assign, sign⟩ :: middle) place)
    (hvalue : Reads expression middle rest value) :
    Reads naming (⟨.word name, position⟩ :: ⟨.symbol .leftBracket, opening⟩ :: input) rest
      (.assignIndex name place value position.line) := by
  refine (reads_current _ _).bind (reads_word.bind ((reads_current _ _).bind ?_))
  refine (reads_advance _ _).bind (hplace.bind (reads_symbol.bind (reads_symbol.bind ?_)))
  exact hvalue.bind (reads_pure rest _)

theorem reads_assignProperty {position dot word sign : Position} {name property : String}
    {input rest : List Token} {value : Expr} (hvalue : Reads expression input rest value) :
    Reads naming
      (⟨.word name, position⟩ :: ⟨.symbol .dot, dot⟩ :: ⟨.word property, word⟩ ::
        ⟨.symbol .assign, sign⟩ :: input)
      rest (.assignProperty name property value position.line) := by
  refine (reads_current _ _).bind (reads_word.bind ((reads_current _ _).bind ?_))
  refine (reads_advance _ _).bind (reads_word.bind (reads_symbol.bind ?_))
  exact hvalue.bind (reads_pure rest _)

/-- A call as a statement has its arguments in parentheses behind the name. -/
theorem separated_of_call {position : Position} {name : String} {arguments : List Expr}
    {input rest : List Token}
    (h : Expression .primary (⟨.word name, position⟩ :: input) rest
      (.call name arguments position.line)) :
    ∃ opening inner pieces, input = ⟨.symbol .leftParen, opening⟩ :: inner ∧
      Separated .rightParen inner pieces rest ∧
      (∀ piece ∈ pieces, Expression .disjunction piece.start piece.stop piece.tree) ∧
      arguments = pieces.map Piece.tree := by
  generalize hlevel : Level.primary = level at h
  generalize hinput : (⟨.word name, position⟩ :: input : List Token) = tokens at h
  generalize htree : Expr.call name arguments position.line = tree at h
  cases h with
  | call hseparated harguments =>
      cases hinput
      cases htree
      exact ⟨_, _, _, rfl, hseparated, harguments, rfl⟩
  | tighter htighter => subst hlevel; cases htighter
  | joined hjoin => subst hlevel; simp [Level.join?] at hjoin
  | parentheses => cases hinput
  | _ => cases htree

theorem reads_callStatement {position : Position} {name : String} {arguments : List Expr}
    {input rest : List Token}
    (h : Expression .primary (⟨.word name, position⟩ :: input) rest
      (.call name arguments position.line)) :
    Reads naming (⟨.word name, position⟩ :: input) rest
      (.expression (.call name arguments position.line) position.line) := by
  obtain ⟨opening, inner, pieces, rfl, hseparated, harguments, rfl⟩ := separated_of_call h
  have hcall : Reads (callOf expression name position.line)
      (⟨.symbol .leftParen, opening⟩ :: inner) rest
      (.call name (pieces.map Piece.tree) position.line) := by
    refine reads_callOf hseparated fun piece hpiece => ?_
    have hphrase := harguments piece hpiece
    exact ⟨hphrase.consumes, hphrase.front_ne rfl rfl, hphrase.front_ne rfl rfl,
      fun hends => reads_expression hphrase (ends_of_endsItem rfl hends _)⟩
  refine (reads_current _ _).bind (reads_word.bind ((reads_current _ _).bind ?_))
  exact hcall.bind (reads_pure rest _)

section

variable {statement : Parser Stmt}

theorem reads_branching {position : Position} {input middle rest behind : List Token}
    {condition : Expr} {yes : List (Piece Stmt)}
    (hcondition : Parenthesized input middle condition) (hyes : Braced middle yes rest)
    (hpieces : ∀ piece ∈ yes, ReadsStatement statement piece) (hbehind : Newlines rest behind)
    (hnewline : front behind ≠ .newline) (hanya : (front behind).toClass ≠ .keyword .anya) :
    Reads (branching statement) (⟨.keyword .yadi, position⟩ :: input) behind
      (.branch condition (yes.map Piece.tree) none position.line) := by
  refine reads_keyword.bind ((reads_parenthesized hcondition).bind ?_)
  refine (reads_blockOf hyes hpieces).bind ((reads_skipNewlines hbehind hnewline).bind ?_)
  exact (reads_isAt_false hanya).bind (reads_pure behind _)

theorem reads_branching_otherwise {position other : Position}
    {input middle behind alternative rest : List Token} {condition : Expr}
    {yes : List (Piece Stmt)} {no : List Stmt} (hcondition : Parenthesized input middle condition)
    (hyes : Braced middle yes behind) (hpieces : ∀ piece ∈ yes, ReadsStatement statement piece)
    (hnewlines : Newlines behind (⟨.keyword .anya, other⟩ :: alternative))
    (hno : Reads (otherwise statement) alternative rest no) :
    Reads (branching statement) (⟨.keyword .yadi, position⟩ :: input) rest
      (.branch condition (yes.map Piece.tree) (some no) position.line) := by
  refine reads_keyword.bind ((reads_parenthesized hcondition).bind ?_)
  refine (reads_blockOf hyes hpieces).bind ((reads_skipNewlines hnewlines (by simp)).bind ?_)
  refine (reads_isAt_true (by rfl)).bind ((reads_advance _ _).bind ?_)
  exact hno.bind (reads_pure rest _)

theorem reads_otherwise_block {input rest : List Token} {pieces : List (Piece Stmt)}
    (hbraced : Braced input pieces rest)
    (hpieces : ∀ piece ∈ pieces, ReadsStatement statement piece) :
    Reads (otherwise statement) input rest (pieces.map Piece.tree) := by
  have hyadi : (front input).toClass ≠ .keyword .yadi := by
    obtain ⟨opening, closing, inner, hnewlines, hlines⟩ := hbraced
    rcases hnewlines.front_or with hfront | hfront <;> rw [hfront] <;> simp [TokenKind.toClass]
  exact (reads_isAt_false hyadi).bind (reads_blockOf hbraced hpieces)

theorem reads_otherwise_branching {position : Position} {input rest : List Token} {no : Stmt}
    (hno : Reads statement (⟨.keyword .yadi, position⟩ :: input) rest no) :
    Reads (otherwise statement) (⟨.keyword .yadi, position⟩ :: input) rest [no] :=
  (reads_isAt_true (by rfl)).bind (hno.bind (reads_pure rest _))

theorem reads_looping {position : Position} {input middle rest : List Token} {condition : Expr}
    {body : List (Piece Stmt)} (hcondition : Parenthesized input middle condition)
    (hbody : Braced middle body rest) (hpieces : ∀ piece ∈ body, ReadsStatement statement piece) :
    Reads (looping statement) (⟨.keyword .jaba, position⟩ :: input) rest
      (.loop condition (body.map Piece.tree) position.line) := by
  refine reads_keyword.bind ((reads_parenthesized hcondition).bind ?_)
  exact (reads_blockOf hbody hpieces).bind (reads_pure rest _)

theorem reads_ranging {position opening word dekhi samma closing : Position} {counter : String}
    {input second third fourth rest : List Token} {first bound : Expr} {step : Option Expr}
    {body : List (Piece Stmt)}
    (hfirst : Expression .disjunction input (⟨.keyword .samma, samma⟩ :: second) first)
    (hbound : Expression .disjunction second third bound)
    (hstep : RangeStep third (⟨.symbol .rightParen, closing⟩ :: fourth) step)
    (hbody : Braced fourth body rest) (hpieces : ∀ piece ∈ body, ReadsStatement statement piece) :
    Reads (ranging statement)
      (⟨.keyword .prawahit, position⟩ :: ⟨.symbol .leftParen, opening⟩ :: ⟨.word counter, word⟩ ::
        ⟨.keyword .dekhi, dekhi⟩ :: input)
      rest (.range counter first bound step (body.map Piece.tree) position.line) := by
  have hreadFirst := reads_expression hfirst (ends_of_strength? rfl _)
  have hreadBound := reads_expression hbound (RangeStep.ends hstep _)
  refine reads_keyword.bind (reads_symbol.bind (reads_word.bind (reads_keyword.bind ?_)))
  refine hreadFirst.bind (reads_keyword.bind (hreadBound.bind ((reads_rangeStep hstep).bind ?_)))
  exact reads_symbol.bind ((reads_blockOf hbody hpieces).bind (reads_pure rest _))

theorem reads_definition {position word opening : Position} {name : String}
    {parameters : List String} {input middle rest : List Token} {body : List (Piece Stmt)}
    (hparameters : CommaList .rightParen Word input middle parameters)
    (hbody : Braced middle body rest) (hpieces : ∀ piece ∈ body, ReadsStatement statement piece) :
    Reads (definition statement)
      (⟨.keyword .kaam, position⟩ :: ⟨.word name, word⟩ :: ⟨.symbol .leftParen, opening⟩ :: input)
      rest (.define name parameters (body.map Piece.tree) position.line) := by
  refine reads_keyword.bind (reads_word.bind (reads_symbol.bind ?_))
  refine (reads_parameters hparameters).bind ?_
  exact (reads_blockOf hbody hpieces).bind (reads_pure rest _)

theorem reads_attempting {position samatan opening word closing : Position} {errorName : String}
    {input behind clause rest : List Token} {body handler : List (Piece Stmt)}
    (hbody : Braced input body behind) (hpieces : ∀ piece ∈ body, ReadsStatement statement piece)
    (hnewlines : Newlines behind
      (⟨.keyword .samatan, samatan⟩ :: ⟨.symbol .leftParen, opening⟩ :: ⟨.word errorName, word⟩ ::
        ⟨.symbol .rightParen, closing⟩ :: clause))
    (hhandler : Braced clause handler rest)
    (hclauses : ∀ piece ∈ handler, ReadsStatement statement piece) :
    Reads (attempting statement) (⟨.keyword .pryas, position⟩ :: input) rest
      (.attempt (body.map Piece.tree) errorName (handler.map Piece.tree) position.line) := by
  refine reads_keyword.bind ((reads_blockOf hbody hpieces).bind ?_)
  refine (reads_skipNewlines hnewlines (by simp)).bind (reads_keyword.bind (reads_symbol.bind ?_))
  refine reads_word.bind (reads_symbol.bind ?_)
  exact (reads_blockOf hhandler hclauses).bind (reads_pure rest _)

theorem reads_printing {line : Nat} {verb : Position} {input rest : List Token} {value : Expr}
    (h : Parenthesized input rest value) :
    Reads (printing line) (⟨.keyword .bhana, verb⟩ :: input) rest (.print value line) :=
  reads_keyword.bind ((reads_parenthesized h).bind (reads_pure rest _))

theorem reads_declaration {line : Nat} {yo ho word sign : Position} {name : String}
    {input rest : List Token} {value : Expr} (hvalue : Reads expression input rest value) :
    Reads (declaration line)
      (⟨.keyword .yo, yo⟩ :: ⟨.keyword .ho, ho⟩ :: ⟨.word name, word⟩ ::
        ⟨.symbol .assign, sign⟩ :: input)
      rest (.declare name value line) := by
  refine reads_keyword.bind (reads_keyword.bind (reads_word.bind (reads_symbol.bind ?_)))
  exact hvalue.bind (reads_pure rest _)

/-- Behind the opening word the statement itself is recognised by its first token. -/
theorem reads_opened {line : Nat} {input rest : List Token} {tree : Stmt}
    (hstarts : startsStatement .unopened (front input) = true)
    (hread : Reads (unopened statement) input rest tree) :
    Reads (opened statement line) input rest tree := by
  intro ending
  have hclass := current_toClass input ending
  have hbhana : (front input).toClass ≠ .keyword .bhana := by
    intro h
    cases hfront : front input <;> simp_all [TokenKind.toClass, startsStatement]
  have hyo : (front input).toClass ≠ .keyword .yo := by
    intro h
    cases hfront : front input <;> simp_all [TokenKind.toClass, startsStatement]
  have hunopened : startsUnopened (front input).toClass = true := by
    unfold startsStatement at hstarts
    split at hstarts <;> simp_all [TokenKind.toClass, startsUnopened]
  change (if (Lexed.current ⟨input, .ok ending⟩).toClass = .keyword .bhana then printing line
    else if (Lexed.current ⟨input, .ok ending⟩).toClass = .keyword .yo then declaration line
    else if startsUnopened (Lexed.current ⟨input, .ok ending⟩).toClass = true then
      unopened statement
    else fail .expectedStatementKeyword) _ = _
  rw [hclass, if_neg hbhana, if_neg hyo, if_pos hunopened]
  exact hread ending

theorem reads_statementOf_opened {position : Position} {input rest : List Token} {tree : Stmt}
    (hread : Reads (opened statement position.line) input rest tree) :
    Reads (statementOf statement) (⟨.keyword .sathi, position⟩ :: input) rest tree :=
  (reads_current _ input).bind ((reads_advance _ input).bind hread)

theorem reads_statementOf_bare {input rest : List Token} {tree : Stmt}
    (hsathi : front input ≠ .keyword .sathi) (hread : Reads (unopened statement) input rest tree) :
    Reads (statementOf statement) input rest tree := by
  intro ending
  have hclass : (Lexed.current ⟨input, .ok ending⟩).toClass ≠ .keyword .sathi := by
    rw [current_toClass]
    cases hfront : front input <;> simp_all [TokenKind.toClass]
  change (if (Lexed.current ⟨input, .ok ending⟩).toClass = .keyword .sathi then _ else _ :
    Parser Stmt) _ = _
  rw [if_neg hclass]
  exact hread ending

end

/-- A statement is read when its parser is allowed to nest more deeply than there are tokens. -/
def ReadsForm (form : Form) (input rest : List Token) (tree : Stmt) : Prop :=
  ∀ depth, input.length ≤ depth → EndsStatement rest →
    ReadsTrailed (ofForm form (statementWithin depth)) input rest tree

/-- The statements of a block inside a statement are read. -/
theorem readsStatement_of_form (depth : Nat) {input rest : List Token}
    {pieces : List (Piece Stmt)} (hbraced : Braced input pieces rest) (hdepth : input.length < depth)
    (hpieces : ∀ piece ∈ pieces, Statement .any piece.start piece.stop piece.tree)
    (hread : ∀ piece ∈ pieces, ReadsForm .any piece.start piece.stop piece.tree) :
    ∀ piece ∈ pieces, ReadsStatement (statementWithin depth) piece := by
  obtain ⟨depth, rfl⟩ := Nat.exists_eq_add_one_of_ne_zero (Nat.ne_zero_of_lt hdepth)
  intro piece hpiece
  have hphrase := hpieces piece hpiece
  have hlength : piece.start.length ≤ depth := by
    obtain ⟨opening, closing, inner, hnewlines, hlines⟩ := hbraced
    have hstart := hlines.start_suffix (fun other hother => (hpieces other hother).consumes) piece
      hpiece
    have hinner := hnewlines.suffix.length_le
    have hpiece := hstart.length_le
    simp only [List.length_cons] at hinner
    omega
  exact ⟨hphrase.consumes, hphrase.starts, fun hends => hread piece hpiece depth hlength hends⟩

theorem reads_unopened_named {name : String} {position : Position} {input rest : List Token}
    {statement : Parser Stmt} {tree : Stmt}
    (h : Reads naming (⟨.word name, position⟩ :: input) rest tree) :
    Reads (unopened statement) (⟨.word name, position⟩ :: input) rest tree :=
  (reads_current _ _).bind h

/-- The place where the newlines behind a statement end. -/
theorem EndsStatement.behind {rest : List Token} (h : EndsStatement rest) :
    ∃ behind, Newlines rest behind ∧ front behind ≠ .newline ∧
      (front behind).toClass ≠ .keyword .anya := by
  obtain ⟨behind, hnewlines, hbehind⟩ := h
  refine ⟨behind, hnewlines, ?_, ?_⟩
  · intro hfront
    simp [hfront, startsStatement] at hbehind
  · intro hfront
    cases hkind : front behind <;> simp_all [TokenKind.toClass, startsStatement]

theorem readsForm_of_statement {form : Form} {input rest : List Token} {tree : Stmt}
    (h : Statement form input rest tree) : ReadsForm form input rest tree := by
  induction h with
  | bare hphrase ih =>
      intro depth hdepth hends
      obtain ⟨behind, hnewlines, hread⟩ := ih depth hdepth hends
      exact ⟨behind, hnewlines, reads_statementOf_bare (hphrase.front_ne rfl) hread⟩
  | opened hphrase ih =>
      intro depth hdepth hends
      obtain ⟨behind, hnewlines, hread⟩ := ih depth (Nat.le_of_succ_le hdepth) hends
      exact ⟨behind, hnewlines, reads_statementOf_opened (reads_opened hphrase.starts hread)⟩
  | print hvalue =>
      intro depth hdepth hends
      refine (reads_statementOf_opened ((reads_current _ _).bind ?_)).trailed
      exact reads_printing hvalue
  | declare hvalue =>
      intro depth hdepth hends
      refine (reads_statementOf_opened ((reads_current _ _).bind ?_)).trailed
      exact reads_declaration (reads_expression hvalue (hends.ends _))
  | branch hcondition hyes hpieces ih =>
      intro depth hdepth hends
      obtain ⟨behind, hnewlines, hnewline, hanya⟩ := EndsStatement.behind hends
      have hlength := Nat.lt_of_lt_of_le (hcondition.consumes.2) (Nat.le_of_succ_le hdepth)
      refine ⟨behind, hnewlines, (reads_current _ _).bind ?_⟩
      exact reads_branching hcondition hyes
        (readsStatement_of_form depth hyes hlength hpieces ih) hnewlines hnewline hanya
  | branchElse hcondition hyes hpieces hnewlines hno hothers ihyes ihno =>
      intro depth hdepth hends
      have hlength := Nat.lt_of_lt_of_le (hcondition.consumes.2) (Nat.le_of_succ_le hdepth)
      have hbehind := (hyes.consumes fun piece hpiece => (hpieces piece hpiece).consumes).2
      have halternative := hnewlines.suffix.length_le
      rw [List.length_cons] at halternative
      have hotherwise := reads_otherwise_block hno
        (readsStatement_of_form depth hno (by omega) hothers ihno)
      refine Reads.trailed ((reads_current _ _).bind ?_)
      exact reads_branching_otherwise hcondition hyes
        (readsStatement_of_form depth hyes hlength hpieces ihyes) hnewlines hotherwise
  | branchElseIf hcondition hyes hpieces hnewlines hno ihyes ihno =>
      intro depth hdepth hends
      have hlength := Nat.lt_of_lt_of_le (hcondition.consumes.2) (Nat.le_of_succ_le hdepth)
      have hbehind := (hyes.consumes fun piece hpiece => (hpieces piece hpiece).consumes).2
      have halternative := hnewlines.suffix.length_le
      simp only [List.length_cons] at halternative
      obtain ⟨depth, rfl⟩ := Nat.exists_eq_add_one_of_ne_zero (Nat.ne_zero_of_lt hlength)
      obtain ⟨last, hlast, hinner⟩ := ihno depth (by simp only [List.length_cons]; omega) hends
      have hstatement : Reads (statementWithin (depth + 1)) _ _ _ :=
        reads_statementOf_bare (by simp) hinner
      refine ⟨last, hlast, (reads_current _ _).bind ?_⟩
      exact reads_branching_otherwise hcondition hyes
        (readsStatement_of_form (depth + 1) hyes hlength hpieces ihyes) hnewlines
        (reads_otherwise_branching hstatement)
  | loop hcondition hbody hpieces ih =>
      intro depth hdepth hends
      have hlength := Nat.lt_of_lt_of_le (hcondition.consumes.2) (Nat.le_of_succ_le hdepth)
      refine Reads.trailed ((reads_current _ _).bind ?_)
      exact reads_looping hcondition hbody
        (readsStatement_of_form depth hbody hlength hpieces ih)
  | range hfirst hbound hstep hbody hpieces ih =>
      intro depth hdepth hends
      have hsecond := hfirst.consumes.of_cons.2
      have hthird := hbound.consumes.2
      have hfourth := hstep.suffix.length_le
      simp only [List.length_cons] at hdepth hfourth
      refine Reads.trailed ((reads_current _ _).bind ?_)
      exact reads_ranging hfirst hbound hstep hbody
        (readsStatement_of_form depth hbody (by omega) hpieces ih)
  | define hparameters hbody hpieces ih =>
      intro depth hdepth hends
      have hmiddle := hparameters.suffix.length_le
      simp only [List.length_cons] at hdepth
      refine Reads.trailed ((reads_current _ _).bind ?_)
      exact reads_definition hparameters hbody
        (readsStatement_of_form depth hbody (by omega) hpieces ih)
  | giveBack hreturn =>
      intro depth hdepth hends
      exact Reads.trailed ((reads_current _ _).bind (reads_returning hreturn))
  | giveBackValue hvalue =>
      intro depth hdepth hends
      refine Reads.trailed ((reads_current _ _).bind ?_)
      exact reads_returning_value hvalue (hends.ends _)
  | leave =>
      intro depth hdepth hends
      exact Reads.trailed
        ((reads_current _ _).bind ((reads_advance _ _).bind (reads_pure _ _)))
  | proceed =>
      intro depth hdepth hends
      exact Reads.trailed
        ((reads_current _ _).bind ((reads_advance _ _).bind (reads_pure _ _)))
  | attempt hbody hpieces hnewlines hhandler hclauses ihbody ihhandler =>
      intro depth hdepth hends
      have hbehind := (hbody.consumes fun piece hpiece => (hpieces piece hpiece).consumes).2
      have hclause := hnewlines.suffix.length_le
      simp only [List.length_cons] at hclause hdepth
      refine Reads.trailed ((reads_current _ _).bind ?_)
      exact reads_attempting hbody
        (readsStatement_of_form depth hbody (by omega) hpieces ihbody) hnewlines hhandler
        (readsStatement_of_form depth hhandler (by omega) hclauses ihhandler)
  | assign hvalue =>
      intro depth hdepth hends
      refine Reads.trailed (reads_unopened_named ?_)
      exact reads_assign (reads_expression hvalue (hends.ends _))
  | assignIndex hplace hvalue =>
      intro depth hdepth hends
      refine Reads.trailed (reads_unopened_named ?_)
      exact reads_assignIndex (reads_expression hplace (ends_of_strength? rfl _))
        (reads_expression hvalue (hends.ends _))
  | assignProperty hvalue =>
      intro depth hdepth hends
      refine Reads.trailed (reads_unopened_named ?_)
      exact reads_assignProperty (reads_expression hvalue (hends.ends _))
  | call hcall =>
      intro depth hdepth hends
      exact Reads.trailed (reads_unopened_named (reads_callStatement hcall))

theorem readsStatement_of_statement {piece : Piece Stmt}
    (h : Statement .any piece.start piece.stop piece.tree) : ReadsStatement statement piece := by
  refine ⟨h.consumes, h.starts, fun hends => ?_⟩
  obtain ⟨behind, hnewlines, hread⟩ :=
    readsForm_of_statement h piece.start.length (Nat.le_refl _) hends
  exact ⟨behind, hnewlines, (reads_remaining piece.start).bind hread⟩

end Parser

end Bhasha
