import Bhasha.Proofs.Grammar.Lines
import Bhasha.Proofs.Program.SourceOrder

/-!
# Derived trees are in source order

Where the lines of the tokens do not decrease, those of a phrase are bounded from both sides: by the
line of its first token from below, and by the line of every token behind it from above.  The two
bounds meet at the operators, brackets, dots and commas between phrases, and this is the order of
the tree.
-/

namespace Bhasha

namespace Grammar

/-- The lines of the tokens do not decrease. -/
def Ascending (tokens : List Token) : Prop :=
  tokens.Pairwise (·.line ≤ ·.line)

variable {input rest : List Token} {token : Token}

theorem Ascending.of_suffix (h : Ascending input) (hsuffix : rest <:+ input) : Ascending rest :=
  h.sublist hsuffix.sublist

theorem Ascending.behind (h : Ascending (token :: rest)) : OnLines (token.line ≤ ·) rest :=
  (List.pairwise_cons.mp h).1

theorem Ascending.tail (h : Ascending (token :: rest)) : Ascending rest :=
  (List.pairwise_cons.mp h).2

theorem Ascending.from_first (h : Ascending (token :: rest)) :
    OnLines (token.line ≤ ·) (token :: rest) :=
  List.forall_mem_cons.mpr ⟨Nat.le_refl _, h.behind⟩

theorem Consumes.behind (h : Consumes (token :: input) rest) : rest <:+ input := by
  rcases List.suffix_cons_iff.mp h.1 with rfl | hsuffix
  · exact absurd h.2 (Nat.lt_irrefl _)
  · exact hsuffix

section

variable {α : Type} {pieces : List (Piece α)}

theorem Separated.rest_suffix {closing : Symbol} (h : Separated closing input pieces rest)
    (hpieces : ∀ piece ∈ pieces, Consumes piece.start piece.stop) :
    ∀ piece ∈ pieces, rest <:+ piece.stop := by
  induction h with
  | close => simp
  | last _ hstop => simpa using (List.suffix_cons _ _).trans hstop.suffix
  | @more _ input middle rest first pieces _ hstop hrest ih =>
      have hothers : ∀ piece ∈ pieces, Consumes piece.start piece.stop :=
        fun other hother => hpieces other (by simp [hother])
      intro piece hpiece
      rcases List.mem_cons.mp hpiece with rfl | hpiece
      · exact ((hrest.consumes hothers).1.trans (List.suffix_cons _ _)).trans hstop.suffix
      · exact ih hothers piece hpiece

/-- Each of the pieces starts behind those in front of it. -/
theorem Separated.pairwise {closing : Symbol} (h : Separated closing input pieces rest)
    (hpieces : ∀ piece ∈ pieces, Consumes piece.start piece.stop) :
    pieces.Pairwise fun piece later => later.start <:+ piece.stop := by
  induction h with
  | close => exact .nil
  | last => exact List.pairwise_singleton _ _
  | @more _ input middle rest first pieces _ hstop hrest ih =>
      have hothers : ∀ piece ∈ pieces, Consumes piece.start piece.stop :=
        fun other hother => hpieces other (by simp [hother])
      refine List.pairwise_cons.mpr ⟨fun later hlater => ?_, ih hothers⟩
      have hmiddle := (List.suffix_cons _ _).trans hstop.suffix
      exact (hrest.start_suffix hothers later hlater).trans hmiddle

theorem Lines.pairwise (h : Lines input pieces rest)
    (hpieces : ∀ piece ∈ pieces, Consumes piece.start piece.stop) :
    pieces.Pairwise fun piece later => later.start <:+ piece.stop := by
  induction h with
  | done => exact .nil
  | @more input rest first pieces _ hrest ih =>
      have hothers : ∀ piece ∈ pieces, Consumes piece.start piece.stop :=
        fun other hother => hpieces other (by simp [hother])
      exact List.pairwise_cons.mpr ⟨hrest.start_suffix hothers, ih hothers⟩

end

theorem consumes_pieces {level : Level} {pieces : List (Piece Expr)}
    (hpieces : ∀ piece ∈ pieces, Expression level piece.start piece.stop piece.tree) :
    ∀ piece ∈ pieces, Consumes piece.start piece.stop :=
  fun piece hpiece => (hpieces piece hpiece).consumes

/-- The entries of a record take tokens off, as their values do. -/
theorem consumes_entries {entries : List Entry}
    (hkeys : ∀ entry ∈ entries, Key entry.start entry.key entry.middle)
    (hvalues : ∀ entry ∈ entries, Expression .disjunction entry.middle entry.stop entry.value) :
    ∀ piece ∈ entries.map Entry.piece, Consumes piece.start piece.stop := by
  intro piece hpiece
  obtain ⟨entry, hentry, rfl⟩ := List.mem_map.mp hpiece
  exact (hvalues entry hentry).consumes.of_suffix (hkeys entry hentry).suffix

/-- The lines of pieces with commas between them, given those of each piece. -/
theorem Separated.lines_le {closing : Symbol} {level : Level} {pieces : List (Piece Expr)}
    (h : Separated closing input pieces rest)
    (hpieces : ∀ piece ∈ pieces, Expression level piece.start piece.stop piece.tree)
    (hlines : ∀ piece ∈ pieces, Ascending piece.start →
      ∀ line ∈ piece.tree.lines, OnLines (line ≤ ·) piece.stop)
    (hinput : Ascending input) :
    ∀ line ∈ Expr.linesOfAll (pieces.map Piece.tree), OnLines (line ≤ ·) rest := by
  have hstarts := h.start_suffix (consumes_pieces hpieces)
  have hstops := h.rest_suffix (consumes_pieces hpieces)
  refine linesOfAll_of_pieces fun piece hpiece line hline => ?_
  have hstart := hinput.of_suffix (hstarts piece hpiece)
  exact (hlines piece hpiece hstart line hline).of_suffix (hstops piece hpiece)

/-- No line of a phrase comes after the line of a token behind it. -/
theorem Expression.lines_le {level : Level} {tree : Expr} (h : Expression level input rest tree)
    (hinput : Ascending input) : ∀ line ∈ tree.lines, OnLines (line ≤ ·) rest := by
  induction h with
  | tighter _ _ ih => exact ih hinput
  | joined hjoin _ hleft hright ihleft ihright =>
      have hoperator := hinput.of_suffix hleft.consumes.1
      have hbehind := hright.consumes.1
      rw [lines_of_join? hjoin]
      simp only [List.forall_mem_cons, List.forall_mem_append]
      refine ⟨hoperator.behind.of_suffix hbehind, fun line hline => ?_, ihright hoperator.tail⟩
      exact (ihleft hinput line hline).of_suffix (hbehind.trans (List.suffix_cons _ _))
  | sign _ hoperand ih =>
      simp only [Expr.lines, List.forall_mem_cons]
      exact ⟨hinput.behind.of_suffix hoperand.consumes.1, ih hinput.tail⟩
  | index htarget hplace ihtarget ihplace =>
      have hbracket := hinput.of_suffix htarget.consumes.1
      have hbehind := (List.suffix_cons _ _).trans hplace.consumes.1
      simp only [Expr.lines, List.forall_mem_cons, List.forall_mem_append]
      refine ⟨hbracket.behind.of_suffix hbehind, fun line hline => ?_, fun line hline => ?_⟩
      · exact (ihtarget hinput line hline).of_suffix (hbehind.trans (List.suffix_cons _ _))
      · exact (ihplace hbracket.tail line hline).of_suffix (List.suffix_cons _ _)
  | property htarget ih =>
      have hdot := hinput.of_suffix htarget.consumes.1
      simp only [Expr.lines, List.forall_mem_cons]
      refine ⟨hdot.behind.of_suffix (List.suffix_cons _ _), fun line hline => ?_⟩
      exact (ih hinput line hline).of_suffix (List.suffix_append [_, _] _)
  | constant _ => exact List.forall_mem_singleton.mpr hinput.behind
  | var => exact List.forall_mem_singleton.mpr hinput.behind
  | call hseparated hpieces ih =>
      have hconsumes := (hseparated.consumes (consumes_pieces hpieces)).1
      simp only [Expr.lines, List.forall_mem_cons]
      exact ⟨hinput.behind.of_suffix (hconsumes.trans (List.suffix_cons _ _)),
        hseparated.lines_le hpieces ih hinput.tail.tail⟩
  | list hseparated hpieces ih =>
      have hconsumes := (hseparated.consumes (consumes_pieces hpieces)).1
      simp only [Expr.lines, List.forall_mem_cons]
      exact ⟨hinput.behind.of_suffix hconsumes, hseparated.lines_le hpieces ih hinput.tail⟩
  | record hseparated hkeys hvalues ih =>
      have hconsumes := consumes_entries hkeys hvalues
      have hstarts := hseparated.start_suffix hconsumes
      have hstops := hseparated.rest_suffix hconsumes
      simp only [Expr.lines, List.forall_mem_cons]
      refine ⟨hinput.behind.of_suffix (hseparated.consumes hconsumes).1, fun line hline => ?_⟩
      obtain ⟨pair, hpair, hmem⟩ := Expr.mem_linesOfEntries.mp hline
      obtain ⟨entry, hentry, rfl⟩ := List.mem_map.mp hpair
      have hpiece := List.mem_map_of_mem (f := Entry.piece) hentry
      have hstart := hinput.tail.of_suffix (hstarts entry.piece hpiece)
      have hmiddle := hstart.of_suffix (hkeys entry hentry).suffix
      exact (ih entry hentry hmiddle line hmem).of_suffix (hstops entry.piece hpiece)
  | parentheses _ ih =>
      intro line hline
      exact (ih hinput.tail line hline).of_suffix (List.suffix_cons _ _)

/-- Of two phrases one after the other, nothing of the first stands behind anything of the second. -/
theorem Expression.before {level other : Level} {middle last : List Token} {left right : Expr}
    (hleft : Expression level input rest left) (hright : Expression other middle last right)
    (hmiddle : middle <:+ rest) (hinput : Ascending input) : left.Before right := by
  intro line hline
  exact hright.lines_good ((hleft.lines_le hinput line hline).of_suffix hmiddle)

/-- Pieces with commas between them, given that each piece is in order. -/
theorem Separated.inOrder {closing : Symbol} {level : Level} {pieces : List (Piece Expr)}
    {line : Nat} (h : Separated closing input pieces rest)
    (hpieces : ∀ piece ∈ pieces, Expression level piece.start piece.stop piece.tree)
    (hinside : ∀ piece ∈ pieces, Ascending piece.start → piece.tree.InOrder)
    (hinput : Ascending input) (hline : OnLines (line ≤ ·) input) :
    (∀ inner ∈ Expr.linesOfAll (pieces.map Piece.tree), line ≤ inner) ∧
      (pieces.map Piece.tree).Pairwise Expr.Before ∧
      Expr.AllInOrder (pieces.map Piece.tree) := by
  have hstarts := h.start_suffix (consumes_pieces hpieces)
  refine ⟨?_, ?_, ?_⟩
  · refine linesOfAll_of_pieces fun piece hpiece => (hpieces piece hpiece).lines_good ?_
    exact hline.of_suffix (hstarts piece hpiece)
  · rw [List.pairwise_map]
    refine (h.pairwise (consumes_pieces hpieces)).imp_of_mem ?_
    intro piece later hpiece hlater hbehind
    exact (hpieces piece hpiece).before (hpieces later hlater) hbehind
      (hinput.of_suffix (hstarts piece hpiece))
  · refine Expr.allInOrder_iff.mpr (List.forall_mem_map.mpr fun piece hpiece => ?_)
    exact hinside piece hpiece (hinput.of_suffix (hstarts piece hpiece))

theorem inOrder_of_join? {level : Level} {kind : TokenKind} {join : Expr → Expr → Nat → Expr}
    (h : level.join? kind = some join) {left right : Expr} {line : Nat}
    (hoperands : (∀ inner ∈ left.lines, inner ≤ line) ∧ (∀ inner ∈ right.lines, line ≤ inner) ∧
      left.InOrder ∧ right.InOrder) : (join left right line).InOrder := by
  unfold Level.join? at h
  split at h <;> cases h <;> exact hoperands

theorem Expression.inOrder {level : Level} {tree : Expr} (h : Expression level input rest tree)
    (hinput : Ascending input) : tree.InOrder := by
  induction h with
  | tighter _ _ ih => exact ih hinput
  | joined hjoin _ hleft hright ihleft ihright =>
      have hoperator := hinput.of_suffix hleft.consumes.1
      have hbefore := fun line hline => (onLines_cons.mp (hleft.lines_le hinput line hline)).1
      exact inOrder_of_join? hjoin ⟨hbefore, hright.lines_good hoperator.behind, ihleft hinput,
        ihright hoperator.tail⟩
  | sign _ hoperand ih => exact ⟨hoperand.lines_good hinput.behind, ih hinput.tail⟩
  | index htarget hplace ihtarget ihplace =>
      have hbracket := hinput.of_suffix htarget.consumes.1
      have hbefore := fun line hline => (onLines_cons.mp (htarget.lines_le hinput line hline)).1
      exact ⟨hbefore, hplace.lines_good hbracket.behind, ihtarget hinput, ihplace hbracket.tail⟩
  | property htarget ih =>
      have hbefore := fun line hline => (onLines_cons.mp (htarget.lines_le hinput line hline)).1
      exact ⟨hbefore, ih hinput⟩
  | constant _ => trivial
  | var => trivial
  | call hseparated hpieces ih =>
      exact hseparated.inOrder hpieces ih hinput.tail.tail
        (hinput.behind.of_suffix (List.suffix_cons _ _))
  | list hseparated hpieces ih => exact hseparated.inOrder hpieces ih hinput.tail hinput.behind
  | @record position _ _ entries hseparated hkeys hvalues ih =>
      have hconsumes := consumes_entries hkeys hvalues
      have hmiddle : ∀ entry ∈ entries, entry.middle <:+ entry.start :=
        fun entry hentry => (hkeys entry hentry).suffix
      have hstarts := List.forall_mem_map.mp (hseparated.start_suffix hconsumes)
      have hascending := fun entry hentry =>
        (hinput.tail.of_suffix (hstarts entry hentry)).of_suffix (hmiddle entry hentry)
      refine ⟨?_, ?_, ?_⟩
      · intro line hline
        obtain ⟨pair, hpair, hmem⟩ := Expr.mem_linesOfEntries.mp hline
        obtain ⟨entry, hentry, rfl⟩ := List.mem_map.mp hpair
        have hbehind := (hmiddle entry hentry).trans (hstarts entry hentry)
        exact (hvalues entry hentry).lines_good (hinput.behind.of_suffix hbehind) line hmem
      · rw [List.map_map, List.pairwise_map]
        have hpairwise := List.pairwise_map.mp (hseparated.pairwise hconsumes)
        refine hpairwise.imp_of_mem fun {entry later} hentry hlater hbehind => ?_
        exact (hvalues entry hentry).before (hvalues later hlater)
          ((hmiddle later hlater).trans hbehind) (hascending entry hentry)
      · refine Expr.entriesInOrder_iff.mpr (List.forall_mem_map.mpr fun entry hentry => ?_)
        exact ih entry hentry (hascending entry hentry)
  | parentheses _ ih => exact ih hinput.tail

theorem Statement.line_of_unopened {tree : Stmt}
    (h : Statement .unopened (token :: input) rest tree) : tree.line = token.line := by
  cases h <;> rfl

/-- The line of a statement is that of the first token of its phrase, an opening word left aside
that is not its own. -/
theorem Statement.exists_first {form : Form} {tree : Stmt} (h : Statement form input rest tree) :
    ∃ form' first behind, first :: behind <:+ input ∧
      Statement form' (first :: behind) rest tree ∧ tree.line = first.line := by
  have hunopened {start : List Token} (hphrase : Statement .unopened start rest tree) :
      ∃ form' first behind, first :: behind <:+ start ∧
        Statement form' (first :: behind) rest tree ∧ tree.line = first.line := by
    cases start with
    | nil => exact absurd hphrase.consumes.2 (Nat.not_lt_zero _)
    | cons first behind =>
        exact ⟨_, first, behind, List.suffix_refl _, hphrase, hphrase.line_of_unopened⟩
  cases form with
  | unopened => exact hunopened h
  | any =>
      cases h with
      | bare hphrase => exact hunopened hphrase
      | opened hphrase =>
          obtain ⟨form', first, behind, hsuffix, hfirst, hline⟩ := hunopened hphrase
          exact ⟨form', first, behind, hsuffix.trans (List.suffix_cons _ _), hfirst, hline⟩
      | print hvalue => exact ⟨_, _, _, List.suffix_refl _, .print hvalue, rfl⟩
      | declare hvalue => exact ⟨_, _, _, List.suffix_refl _, .declare hvalue, rfl⟩

/-- No line of a statement comes before its own. -/
theorem Statement.line_first {form : Form} {tree : Stmt} (h : Statement form input rest tree)
    (hinput : Ascending input) : ∀ line ∈ tree.lines, tree.line ≤ line := by
  obtain ⟨form', first, behind, hsuffix, hphrase, hline⟩ := h.exists_first
  rw [hline]
  exact hphrase.lines_good (hinput.of_suffix hsuffix).from_first

/-- The line of a statement comes before that of every token behind it. -/
theorem Statement.line_le {form : Form} {tree : Stmt} (h : Statement form input rest tree)
    (hinput : Ascending input) : OnLines (tree.line ≤ ·) rest := by
  obtain ⟨form', first, behind, hsuffix, hphrase, hline⟩ := h.exists_first
  rw [hline]
  exact (hinput.of_suffix hsuffix).behind.of_suffix hphrase.consumes.behind

/-- The statements of a list are laid out somewhere in the tokens. -/
def Laid (tokens : List Token) (block : List Stmt) : Prop :=
  ∃ start stop, ∃ pieces : List (Piece Stmt),
    start <:+ tokens ∧ Lines start pieces stop ∧
      (∀ piece ∈ pieces, Statement .any piece.start piece.stop piece.tree) ∧
      block = pieces.map Piece.tree

/-- An expression is a phrase somewhere in the tokens. -/
def Stands (tokens : List Token) (expr : Expr) : Prop :=
  ∃ level start stop, start <:+ tokens ∧ Expression level start stop expr

theorem Laid.of_suffix {block : List Stmt} (h : Laid rest block) (hsuffix : rest <:+ input) :
    Laid input block := by
  obtain ⟨start, stop, pieces, hstart, hlaid⟩ := h
  exact ⟨start, stop, pieces, hstart.trans hsuffix, hlaid⟩

theorem Stands.of_suffix {expr : Expr} (h : Stands rest expr) (hsuffix : rest <:+ input) :
    Stands input expr := by
  obtain ⟨level, start, stop, hstart, hphrase⟩ := h
  exact ⟨level, start, stop, hstart.trans hsuffix, hphrase⟩

theorem laid_nil (tokens : List Token) : Laid tokens [] :=
  ⟨[], [], [], List.nil_suffix, .done (.none []), by simp, rfl⟩

theorem Statement.laid {tree : Stmt} (h : Statement .any input rest tree) : Laid input [tree] := by
  refine ⟨input, rest, [⟨input, rest, tree⟩], List.suffix_refl _, ?_, ?_, rfl⟩
  · exact .more (.none input) (.done (.none rest))
  · simpa using h

theorem Braced.suffix {pieces : List (Piece Stmt)} (h : Braced input pieces rest)
    (hpieces : ∀ piece ∈ pieces, Statement .any piece.start piece.stop piece.tree) :
    rest <:+ input :=
  (h.consumes fun piece hpiece => (hpieces piece hpiece).consumes).1

theorem Braced.laid {pieces : List (Piece Stmt)} (h : Braced input pieces rest)
    (hpieces : ∀ piece ∈ pieces, Statement .any piece.start piece.stop piece.tree) :
    Laid input (pieces.map Piece.tree) := by
  obtain ⟨opening, closing, inner, hnewlines, hlines⟩ := h
  have hinner := (List.suffix_cons _ _).trans hnewlines.suffix
  exact ⟨inner, _, pieces, hinner, hlines, hpieces, rfl⟩

theorem Expression.stands {level : Level} {expr : Expr} (h : Expression level input rest expr) :
    Stands input expr :=
  ⟨level, input, rest, List.suffix_refl _, h⟩

theorem Parenthesized.stands {expr : Expr} (h : Parenthesized input rest expr) :
    Stands input expr := by
  obtain ⟨opening, closing, inner, rfl, hinner⟩ := h
  exact hinner.stands.of_suffix (List.suffix_cons _ _)

theorem RangeStep.stands {step : Option Expr} (h : RangeStep input rest step) :
    ∀ expr ∈ step.toList, Stands input expr := by
  cases h with
  | none => simp
  | some hstep => simpa using hstep.stands.of_suffix (List.suffix_cons _ _)

/-- The expressions of a statement are phrases among its tokens. -/
theorem Statement.stands {form : Form} {tree : Stmt} (h : Statement form input rest tree) :
    ∀ expr ∈ tree.expressions, Stands input expr := by
  induction h with
  | bare _ ih => exact ih
  | opened _ ih => exact fun expr hexpr => (ih expr hexpr).of_suffix (List.suffix_cons _ _)
  | print hvalue =>
      simpa [Stmt.expressions] using hvalue.stands.of_suffix (List.suffix_append [_, _] _)
  | declare hvalue =>
      simpa [Stmt.expressions] using hvalue.stands.of_suffix (List.suffix_append [_, _, _, _, _] _)
  | branch hcondition | branchElse hcondition | branchElseIf hcondition | loop hcondition =>
      simpa [Stmt.expressions] using hcondition.stands.of_suffix (List.suffix_cons _ _)
  | range hfirst hbound hstep =>
      have hsecond := (List.suffix_cons _ _).trans hfirst.consumes.1
      have hthird := hbound.consumes.1.trans hsecond
      simp only [Stmt.expressions, List.forall_mem_cons]
      refine ⟨?_, ?_, fun expr hexpr => ?_⟩
      · exact hfirst.stands.of_suffix (List.suffix_append [_, _, _, _] _)
      · exact hbound.stands.of_suffix (hsecond.trans (List.suffix_append [_, _, _, _] _))
      · exact (hstep.stands expr hexpr).of_suffix
          (hthird.trans (List.suffix_append [_, _, _, _] _))
  | define | giveBack | leave | proceed | attempt => simp [Stmt.expressions]
  | giveBackValue hvalue =>
      simpa [Stmt.expressions] using hvalue.stands.of_suffix (List.suffix_cons _ _)
  | assign hvalue =>
      simpa [Stmt.expressions] using hvalue.stands.of_suffix (List.suffix_append [_, _] _)
  | assignIndex hplace hvalue =>
      have hmiddle := (List.suffix_append [_, _] _).trans hplace.consumes.1
      simp only [Stmt.expressions, List.forall_mem_cons]
      refine ⟨?_, ?_, by simp⟩
      · exact hplace.stands.of_suffix (List.suffix_append [_, _] _)
      · exact hvalue.stands.of_suffix (hmiddle.trans (List.suffix_append [_, _] _))
  | assignProperty hvalue =>
      simpa [Stmt.expressions] using hvalue.stands.of_suffix (List.suffix_append [_, _, _, _] _)
  | call hcall => simpa [Stmt.expressions] using hcall.stands

/-- The blocks of a statement are laid out among its tokens. -/
theorem Statement.blocks_laid {form : Form} {tree : Stmt} (h : Statement form input rest tree) :
    ∀ entry ∈ tree.blocks, Laid input entry.2 := by
  induction h with
  | bare _ ih => exact ih
  | opened _ ih => exact fun entry hentry => (ih entry hentry).of_suffix (List.suffix_cons _ _)
  | branch hcondition hyes hpieces =>
      have hmiddle := hcondition.consumes.1
      simpa [Stmt.blocks] using And.intro
        ((hyes.laid hpieces).of_suffix (hmiddle.trans (List.suffix_cons _ _))) (laid_nil _)
  | branchElse hcondition hyes hpieces hnewlines hno hothers =>
      have hmiddle := hcondition.consumes.1
      have hbehind := hyes.suffix hpieces
      have hother := (List.suffix_cons _ _).trans (hnewlines.suffix.trans (hbehind.trans hmiddle))
      simpa [Stmt.blocks] using And.intro
        ((hyes.laid hpieces).of_suffix (hmiddle.trans (List.suffix_cons _ _)))
        ((hno.laid hothers).of_suffix (hother.trans (List.suffix_cons _ _)))
  | branchElseIf hcondition hyes hpieces hnewlines hno =>
      have hmiddle := hcondition.consumes.1
      have hbehind := hyes.suffix hpieces
      have hother := (List.suffix_cons _ _).trans (hnewlines.suffix.trans (hbehind.trans hmiddle))
      simpa [Stmt.blocks] using And.intro
        ((hyes.laid hpieces).of_suffix (hmiddle.trans (List.suffix_cons _ _)))
        (hno.bare.laid.of_suffix (hother.trans (List.suffix_cons _ _)))
  | loop hcondition hbody hpieces =>
      have hmiddle := hcondition.consumes.1
      simpa [Stmt.blocks] using
        (hbody.laid hpieces).of_suffix (hmiddle.trans (List.suffix_cons _ _))
  | range hfirst hbound hstep hbody hpieces =>
      have hsecond := (List.suffix_cons _ _).trans hfirst.consumes.1
      have hthird := hbound.consumes.1.trans hsecond
      have hfourth := (List.suffix_cons _ _).trans (hstep.suffix.trans hthird)
      simpa [Stmt.blocks] using (hbody.laid hpieces).of_suffix
        (hfourth.trans (List.suffix_append [_, _, _, _] _))
  | define hparameters hbody hpieces =>
      have hmiddle := hparameters.suffix
      simpa [Stmt.blocks] using
        (hbody.laid hpieces).of_suffix (hmiddle.trans (List.suffix_append [_, _, _] _))
  | attempt hbody hpieces hnewlines hhandler hothers =>
      have hbehind := hbody.suffix hpieces
      have hclause := (List.suffix_append [_, _, _, _] _).trans (hnewlines.suffix.trans hbehind)
      simpa [Stmt.blocks] using And.intro
        ((hbody.laid hpieces).of_suffix (List.suffix_cons _ _))
        ((hhandler.laid hothers).of_suffix (hclause.trans (List.suffix_cons _ _)))
  | _ => simp [Stmt.blocks]

/-- Statements that are laid out in ascending tokens are successive. -/
theorem Laid.successive {block : List Stmt} (h : Laid input block) (hinput : Ascending input) :
    Stmt.Successive block := by
  obtain ⟨start, stop, pieces, hstart, hlines, hpieces, rfl⟩ := h
  have hconsumes := fun piece hpiece => (hpieces piece hpiece).consumes
  have hstarts := hlines.start_suffix hconsumes
  unfold Stmt.Successive
  rw [List.pairwise_map]
  refine (hlines.pairwise hconsumes).imp_of_mem fun {piece later} hpiece hlater hbehind => ?_
  have hascending := hinput.of_suffix ((hstarts piece hpiece).trans hstart)
  obtain ⟨form, first, behind, hfirst, -, hline⟩ := (hpieces later hlater).exists_first
  rw [hline]
  exact (hpieces piece hpiece).line_le hascending first
    ((hfirst.trans hbehind).mem List.mem_cons_self)

theorem Statement.inOrder {form : Form} {tree : Stmt} (h : Statement form input rest tree)
    (hinput : Ascending input) : tree.InOrder where
  first := h.line_first hinput
  blocks region block hblock := (h.blocks_laid (region, block) hblock).successive hinput
  expressions expr hexpr := by
    obtain ⟨level, start, stop, hstart, hphrase⟩ := h.stands expr hexpr
    exact hphrase.inOrder (hinput.of_suffix hstart)

/-- Every statement in a block that is laid out in the tokens is a phrase of them. -/
theorem Laid.exists_statement {enter : Region → Prop} {block : List Stmt} {statement : Stmt}
    (h : Occurs enter statement block) (hblock : Laid input block) :
    ∃ form start stop, start <:+ input ∧ Statement form start stop statement := by
  have hmember {block : List Stmt} {statement : Stmt} (hmem : statement ∈ block)
      (hblock : Laid input block) :
      ∃ form start stop, start <:+ input ∧ Statement form start stop statement := by
    obtain ⟨start, stop, pieces, hstart, hlines, hpieces, rfl⟩ := hblock
    obtain ⟨piece, hpiece, rfl⟩ := List.mem_map.mp hmem
    have hstarts := hlines.start_suffix fun piece hpiece => (hpieces piece hpiece).consumes
    exact ⟨.any, piece.start, piece.stop, (hstarts piece hpiece).trans hstart,
      hpieces piece hpiece⟩
  induction h with
  | here hmem => exact hmember hmem hblock
  | inside hmem hinner _ _ ih =>
      obtain ⟨form, start, stop, hstart, hphrase⟩ := hmember hmem hblock
      exact ih ((hphrase.blocks_laid _ hinner).of_suffix hstart)

theorem Program.laid {program : Bhasha.Program} (h : Program input program) :
    Laid input program := by
  obtain ⟨pieces, hlines, hpieces, hprogram⟩ := h
  exact ⟨input, [], pieces, List.suffix_refl _, hlines, hpieces, hprogram⟩

/-- Programs that ascending tokens derive are in source order. -/
theorem Program.inOrder {program : Bhasha.Program} (h : Program input program)
    (hinput : Ascending input) : program.InOrder where
  successive := h.laid.successive hinput
  statements statement hoccurs := by
    obtain ⟨form, start, stop, hstart, hphrase⟩ := Laid.exists_statement hoccurs h.laid
    exact hphrase.inOrder (hinput.of_suffix hstart)

end Grammar

end Bhasha
