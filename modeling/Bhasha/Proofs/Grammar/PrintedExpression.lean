import Bhasha.Proofs.Program.Lines
import Bhasha.Proofs.Program.Printer
import Mathlib.Data.List.Forall2

/-!
# Printed expressions are expressions

Whatever the positions of the printed tokens are, the grammar derives a tree from them that
differs from the printed one in its lines only.  Nothing has to be known of what follows an
expression, since the grammar does not say how far a phrase reaches.
-/

namespace Bhasha

namespace Grammar

open Printer

/-- Tokens of the given kinds stand between the two places. -/
def Prints (kinds : List TokenKind) (input rest : List Token) : Prop :=
  ∃ tokens, tokens.map Token.kind = kinds ∧ input = tokens ++ rest

@[simp] theorem prints_nil {input rest : List Token} : Prints [] input rest ↔ input = rest := by
  simp [Prints]

@[simp] theorem prints_cons {kind : TokenKind} {kinds : List TokenKind} {input rest : List Token} :
    Prints (kind :: kinds) input rest ↔
      ∃ position middle, input = ⟨kind, position⟩ :: middle ∧ Prints kinds middle rest := by
  constructor
  · rintro ⟨tokens, hkinds, rfl⟩
    obtain ⟨⟨found, position⟩, others, rfl, hfound, hothers⟩ := List.map_eq_cons_iff.mp hkinds
    obtain rfl : found = kind := hfound
    exact ⟨position, others ++ rest, rfl, others, hothers, rfl⟩
  · rintro ⟨position, _, rfl, tokens, rfl, rfl⟩
    exact ⟨⟨kind, position⟩ :: tokens, rfl, rfl⟩

@[simp] theorem prints_append {first second : List TokenKind} {input rest : List Token} :
    Prints (first ++ second) input rest ↔
      ∃ middle, Prints first input middle ∧ Prints second middle rest := by
  constructor
  · rintro ⟨tokens, hkinds, rfl⟩
    obtain ⟨front, back, rfl, hfront, hback⟩ := List.map_eq_append_iff.mp hkinds
    exact ⟨back ++ rest, ⟨front, hfront, List.append_assoc _ _ _⟩, back, hback, rfl⟩
  · rintro ⟨_, ⟨front, rfl, rfl⟩, back, rfl, rfl⟩
    exact ⟨front ++ back, List.map_append, (List.append_assoc _ _ _).symm⟩

theorem Level.eq_of_rank {level other : Level} (h : level.rank = other.rank) : level = other := by
  cases level <;> cases other <;> cases h <;> rfl

theorem Level.exists_tighter {level other : Level} (h : level.rank < other.rank) :
    ∃ next, level.tighter? = some next ∧ next.rank ≤ other.rank := by
  cases level with
  | primary => cases other <;> simp [rank] at h
  | _ => exact ⟨_, rfl, h⟩

/-- A phrase of a looser level may be one of a tighter level. -/
theorem Expression.loosen {level other : Level} {input rest : List Token} {tree : Expr}
    (h : Expression other input rest tree) (hrank : level.rank ≤ other.rank) :
    Expression level input rest tree := by
  rcases Nat.lt_or_eq_of_le hrank with hlooser | hsame
  · obtain ⟨next, htighter, hnext⟩ := Level.exists_tighter hlooser
    have hdecreases := Level.rank_of_tighter? htighter
    exact .tighter htighter (h.loosen hnext)
  · rw [Level.eq_of_rank hsame]
    exact h
termination_by other.rank - level.rank

/-- A phrase of the level spells the expression, up to the lines. -/
def Derives (level : Level) (expr : Expr) (input rest : List Token) : Prop :=
  ∃ tree, Expression level input rest tree ∧
    tree.relabel (fun _ => 0) = expr.relabel fun _ => 0

/-- Wherever it is printed, the expression is spelled by a phrase of its level. -/
def IsDerived (expr : Expr) : Prop :=
  ∀ input rest, Prints expr.kinds input rest → Derives expr.level expr input rest

theorem IsDerived.disjunction {expr : Expr} (h : IsDerived expr) {input rest : List Token}
    (hprints : Prints expr.kinds input rest) : Derives .disjunction expr input rest := by
  obtain ⟨tree, hphrase, htree⟩ := h input rest hprints
  exact ⟨tree, hphrase.loosen (Nat.zero_le _), htree⟩

theorem derives_inParentheses {expr : Expr} (h : IsDerived expr) {input rest : List Token}
    (hprints : Prints (inParentheses expr.kinds) input rest) :
    ∃ tree, Parenthesized input rest tree ∧
      tree.relabel (fun _ => 0) = expr.relabel fun _ => 0 := by
  simp only [inParentheses, prints_cons, prints_append, prints_nil] at hprints
  obtain ⟨opening, inner, rfl, _, hinner, closing, _, rfl, rfl⟩ := hprints
  obtain ⟨tree, hphrase, htree⟩ := h.disjunction hinner
  exact ⟨tree, ⟨opening, closing, inner, rfl, hphrase⟩, htree⟩

/-- An operand fits in at its place: if it is too loose it is in parentheses. -/
theorem derives_operand {level : Level} {expr : Expr} (h : IsDerived expr)
    {input rest : List Token}
    (hprints : Prints (operand level.rank expr.level expr.kinds) input rest) :
    Derives level expr input rest := by
  unfold operand at hprints
  by_cases hlooser : expr.level.rank < level.rank
  · rw [if_pos hlooser] at hprints
    obtain ⟨tree, ⟨opening, closing, inner, rfl, hphrase⟩, htree⟩ :=
      derives_inParentheses h hprints
    -- In parentheses it is a phrase of the tightest level, which may stand anywhere.
    have hprimary : Expression .primary (⟨.symbol .leftParen, opening⟩ :: inner) rest tree :=
      .parentheses hphrase
    exact ⟨tree, hprimary.loosen (by cases level <;> decide), htree⟩
  · rw [if_neg hlooser] at hprints
    obtain ⟨tree, hphrase, htree⟩ := h input rest hprints
    exact ⟨tree, hphrase.loosen (Nat.le_of_not_lt hlooser), htree⟩

/-- Two operands with an operator of a level between them. -/
theorem derives_joined {level next : Level} {kind : TokenKind}
    {join : Expr → Expr → Nat → Expr} {left right : Expr} (hjoin : level.join? kind = some join)
    (htighter : level.tighter? = some next) (hleft : IsDerived left) (hright : IsDerived right)
    {input rest : List Token}
    (hprints : Prints (operand level.rank left.level left.kinds ++
      kind :: operand (level.rank + 1) right.level right.kinds) input rest) :
    ∃ first second line, Expression level input rest (join first second line) ∧
      first.relabel (fun _ => 0) = left.relabel (fun _ => 0) ∧
      second.relabel (fun _ => 0) = right.relabel fun _ => 0 := by
  simp only [prints_append, prints_cons] at hprints
  obtain ⟨_, hfront, position, middle, rfl, hback⟩ := hprints
  rw [← Level.rank_of_tighter? htighter] at hback
  obtain ⟨first, hfirst, hfirstTree⟩ := derives_operand hleft hfront
  obtain ⟨second, hsecond, hsecondTree⟩ := derives_operand hright hback
  exact ⟨first, second, position.line, .joined hjoin htighter hfirst hsecond, hfirstTree,
    hsecondTree⟩

/-- Items that are derived one by one are derived with commas between them. -/
theorem exists_separated {α β : Type} {closing : Symbol} {good : β → α → Prop}
    {phrase : List Token → List Token → α → Prop} {kinds : List (List TokenKind)}
    {values : List β}
    (hitems : List.Forall₂ (fun item value => ∀ {input rest : List Token},
      Prints item input rest → ∃ tree, phrase input rest tree ∧ good value tree) kinds values)
    {input rest : List Token} (hprints : Prints (commaList closing kinds) input rest) :
    ∃ pieces : List (Piece α), Separated closing input pieces rest ∧
      (∀ piece ∈ pieces, phrase piece.start piece.stop piece.tree) ∧
      List.Forall₂ good values (pieces.map Piece.tree) := by
  induction hitems generalizing input with
  | nil =>
      simp only [commaList, prints_cons, prints_nil] at hprints
      obtain ⟨position, _, rfl, rfl⟩ := hprints
      exact ⟨[], .close (.none _), by simp, .nil⟩
  | @cons item value kinds values hfirst hothers ih =>
      -- What follows the item is the closing symbol, or a comma and the other items.
      cases hothers with
      | nil =>
          simp only [commaList, prints_append, prints_cons, prints_nil] at hprints
          obtain ⟨_, hitem, position, _, rfl, rfl⟩ := hprints
          obtain ⟨tree, hphrase, htree⟩ := hfirst hitem
          exact ⟨[⟨input, _, tree⟩], .last (.none _) (.none _), by simpa using hphrase,
            .cons htree .nil⟩
      | cons hnext hothers =>
          simp only [commaList_cons_cons, prints_append, prints_cons] at hprints
          obtain ⟨_, hitem, position, middle, rfl, hothersPrint⟩ := hprints
          obtain ⟨tree, hphrase, htree⟩ := hfirst hitem
          obtain ⟨pieces, hseparated, hphrases, htrees⟩ := ih hothersPrint
          refine ⟨⟨input, ⟨.symbol .comma, position⟩ :: middle, tree⟩ :: pieces, ?_, ?_, ?_⟩
          · exact .more (.none _) (.none _) hseparated
          · simpa using And.intro hphrase hphrases
          · exact .cons htree htrees

/-- Items that are derived up to what an erasure keeps of them. -/
theorem separated_of_prints {α : Type} {closing : Symbol} {kinds : α → List TokenKind}
    {phrase : List Token → List Token → α → Prop} {erase : α → α} {items : List α}
    (hitems : ∀ item ∈ items, ∀ {input rest : List Token}, Prints (kinds item) input rest →
      ∃ tree, phrase input rest tree ∧ erase tree = erase item)
    {input rest : List Token} (hprints : Prints (commaList closing (items.map kinds)) input rest) :
    ∃ pieces : List (Piece α), Separated closing input pieces rest ∧
      (∀ piece ∈ pieces, phrase piece.start piece.stop piece.tree) ∧
      (pieces.map Piece.tree).map erase = items.map erase := by
  have hall : List.Forall₂ (fun item value => ∀ {input rest : List Token},
      Prints item input rest → ∃ tree, phrase input rest tree ∧ erase tree = erase value)
      (items.map kinds) items := by
    rw [List.forall₂_map_left_iff, List.forall₂_same]
    exact hitems
  have hpieces : ∃ pieces : List (Piece α), Separated closing input pieces rest ∧
      (∀ piece ∈ pieces, phrase piece.start piece.stop piece.tree) ∧
      List.Forall₂ (fun value tree => erase tree = erase value) items (pieces.map Piece.tree) :=
    exists_separated hall hprints
  obtain ⟨pieces, hseparated, hphrases, htrees⟩ := hpieces
  refine ⟨pieces, hseparated, hphrases, ?_⟩
  have herased : List.Forall₂ (· = ·) ((pieces.map Piece.tree).map erase) (items.map erase) := by
    rw [List.forall₂_map_left_iff, List.forall₂_map_right_iff]
    exact htrees.flip
  rwa [List.forall₂_eq_eq_eq] at herased

theorem constant?_kind (value : Literal) : constant? value.kind = some value := by
  cases value with
  | boolean value => cases value <;> rfl
  | _ => rfl

theorem sign?_kind (op : UnaryOp) : sign? op.kind = some op := by
  cases op <;> rfl

theorem join?_binary (op : BinaryOp) :
    op.level.join? op.kind = some (.binary op) ∧ ∃ next, op.level.tighter? = some next := by
  cases op <;> exact ⟨rfl, _, rfl⟩

theorem join?_logical (op : LogicalOp) :
    op.level.join? op.kind = some (.logical op) ∧ ∃ next, op.level.tighter? = some next := by
  cases op <;> exact ⟨rfl, _, rfl⟩

/-- Expressions with commas between them. -/
theorem separated_of_derived {closing : Symbol} {exprs : List Expr}
    (hexprs : ∀ expr ∈ exprs, IsDerived expr) {input rest : List Token}
    (hprints : Prints (commaList closing (Expr.kindsOfAll exprs)) input rest) :
    ∃ pieces : List (Piece Expr), Separated closing input pieces rest ∧
      (∀ piece ∈ pieces, Expression .disjunction piece.start piece.stop piece.tree) ∧
      Expr.relabelAll (fun _ => 0) (pieces.map Piece.tree) =
        Expr.relabelAll (fun _ => 0) exprs := by
  rw [Expr.kindsOfAll_eq_map] at hprints
  simp only [Expr.relabelAll_eq_map]
  exact separated_of_prints
    (fun expr hexpr _ _ hexprPrints => (hexprs expr hexpr).disjunction hexprPrints) hprints

/-- Entries of a record with commas between them. -/
theorem entries_of_derived {entries : List (String × Expr)}
    (hentries : ∀ entry ∈ entries, IsDerived entry.2) {input rest : List Token}
    (hprints : Prints (commaList .rightBrace (Expr.kindsOfEntries entries)) input rest) :
    ∃ found : List Entry, Separated .rightBrace input (found.map Entry.piece) rest ∧
      (∀ entry ∈ found, Key entry.start entry.key entry.middle) ∧
      (∀ entry ∈ found, Expression .disjunction entry.middle entry.stop entry.value) ∧
      Expr.relabelEntries (fun _ => 0) (found.map fun entry => (entry.key, entry.value)) =
        Expr.relabelEntries (fun _ => 0) entries := by
  rw [Expr.kindsOfEntries_eq_map] at hprints
  have hentry : ∀ entry ∈ entries, ∀ {input rest : List Token},
      Prints (.text entry.1 :: .symbol .colon :: entry.2.kinds) input rest →
      ∃ tree : String × Expr,
        (∃ middle, Key input tree.1 middle ∧ Expression .disjunction middle rest tree.2) ∧
          (tree.1, tree.2.relabel fun _ => 0) = (entry.1, entry.2.relabel fun _ => 0) := by
    intro entry hmem input rest h
    simp only [prints_cons] at h
    obtain ⟨position, _, rfl, colon, middle, rfl, hvalue⟩ := h
    obtain ⟨tree, hphrase, htree⟩ := (hentries entry hmem).disjunction hvalue
    exact ⟨(entry.1, tree), ⟨middle, .text (.none middle), hphrase⟩, by rw [htree]⟩
  obtain ⟨pieces, hseparated, hphrases, htrees⟩ := separated_of_prints hentry hprints
  obtain ⟨found, rfl, hkeys, hvalues⟩ := exists_entries hphrases
  refine ⟨found, hseparated, hkeys, hvalues, ?_⟩
  rw [Expr.relabelEntries_eq_map, Expr.relabelEntries_eq_map, ← htrees, List.map_map, List.map_map,
    List.map_map]
  rfl

mutual

/-- Every expression is derived from its tokens, as a phrase of its own level. -/
theorem isDerived (expr : Expr) : IsDerived expr := by
  intro input rest h
  cases expr with
  | literal value line =>
      simp only [Expr.kinds, prints_cons, prints_nil] at h
      obtain ⟨position, _, rfl, rfl⟩ := h
      exact ⟨.literal value position.line, .constant (constant?_kind value), rfl⟩
  | var name line =>
      simp only [Expr.kinds, prints_cons, prints_nil] at h
      obtain ⟨position, _, rfl, rfl⟩ := h
      exact ⟨.var name position.line, .var, rfl⟩
  | unary op inner line =>
      simp only [Expr.kinds, prints_cons] at h
      obtain ⟨position, _, rfl, hinner⟩ := h
      obtain ⟨tree, hphrase, htree⟩ := derives_operand (isDerived inner) hinner
      exact ⟨.unary op tree position.line, .sign (sign?_kind op) hphrase,
        by simp only [Expr.relabel, htree]⟩
  | binary op left right line =>
      obtain ⟨hjoin, next, htighter⟩ := join?_binary op
      obtain ⟨first, second, found, hphrase, hfirst, hsecond⟩ :=
        derives_joined hjoin htighter (isDerived left) (isDerived right) h
      exact ⟨_, hphrase, by simp only [Expr.relabel, hfirst, hsecond]⟩
  | logical op left right line =>
      obtain ⟨hjoin, next, htighter⟩ := join?_logical op
      obtain ⟨first, second, found, hphrase, hfirst, hsecond⟩ :=
        derives_joined hjoin htighter (isDerived left) (isDerived right) h
      exact ⟨_, hphrase, by simp only [Expr.relabel, hfirst, hsecond]⟩
  | list elements line =>
      simp only [Expr.kinds, prints_cons] at h
      obtain ⟨position, _, rfl, helements⟩ := h
      obtain ⟨pieces, hseparated, hphrases, htrees⟩ :=
        separated_of_derived (isDerived_all elements) helements
      exact ⟨.list (pieces.map Piece.tree) position.line, .list hseparated hphrases,
        by simp only [Expr.relabel, htrees]⟩
  | record entries line =>
      simp only [Expr.kinds, prints_cons] at h
      obtain ⟨position, _, rfl, hentries⟩ := h
      obtain ⟨found, hseparated, hkeys, hvalues, htrees⟩ :=
        entries_of_derived (isDerived_entries entries) hentries
      exact ⟨_, .record hseparated hkeys hvalues, by simp only [Expr.relabel, htrees]⟩
  | index target place line =>
      simp only [Expr.kinds, prints_append, prints_cons, prints_nil] at h
      obtain ⟨_, htarget, opening, _, rfl, _, hplace, closing, _, rfl, rfl⟩ := h
      obtain ⟨first, hfirst, hfirstTree⟩ := derives_operand (isDerived target) htarget
      obtain ⟨second, hsecond, hsecondTree⟩ := (isDerived place).disjunction hplace
      exact ⟨.index first second opening.line, .index hfirst hsecond,
        by simp only [Expr.relabel, hfirstTree, hsecondTree]⟩
  | property target name line =>
      simp only [Expr.kinds, prints_append, prints_cons, prints_nil] at h
      obtain ⟨_, htarget, dot, _, rfl, position, _, rfl, rfl⟩ := h
      obtain ⟨first, hfirst, hfirstTree⟩ := derives_operand (isDerived target) htarget
      exact ⟨.property first name dot.line, .property hfirst,
        by simp only [Expr.relabel, hfirstTree]⟩
  | call name arguments line =>
      simp only [Expr.kinds, prints_cons] at h
      obtain ⟨position, _, rfl, opening, _, rfl, harguments⟩ := h
      obtain ⟨pieces, hseparated, hphrases, htrees⟩ :=
        separated_of_derived (isDerived_all arguments) harguments
      exact ⟨.call name (pieces.map Piece.tree) position.line, .call hseparated hphrases,
        by simp only [Expr.relabel, htrees]⟩

theorem isDerived_all (exprs : List Expr) : ∀ expr ∈ exprs, IsDerived expr := by
  cases exprs with
  | nil => simp
  | cons first rest =>
      intro expr hexpr
      rcases List.mem_cons.mp hexpr with hfirst | hrest
      · rw [hfirst]
        exact isDerived first
      · exact isDerived_all rest expr hrest

theorem isDerived_entries (entries : List (String × Expr)) :
    ∀ entry ∈ entries, IsDerived entry.2 := by
  cases entries with
  | nil => simp
  | cons first rest =>
      obtain ⟨key, value⟩ := first
      intro entry hentry
      rcases List.mem_cons.mp hentry with hfirst | hrest
      · rw [hfirst]
        exact isDerived value
      · exact isDerived_entries rest entry hrest

end

end Grammar

end Bhasha
