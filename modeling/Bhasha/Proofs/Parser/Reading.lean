import Bhasha.Parser.Basic
import Bhasha.Proofs.Grammar.Follow

/-!
# What the basic parsers do not miss

On tokens that end at the end of the source, a parser that reads a phrase ends well, returns its
tree and leaves over what is behind it.  The basic parsers are shown to read what the grammar
says, and a list with commas is read as soon as its items are.
-/

namespace Bhasha

namespace Parser

open Grammar

variable {α β : Type}

/-- A parser ends well on the input, returns the tree, and leaves the rest over. -/
def Reads (parser : Parser α) (input rest : List Token) (tree : α) : Prop :=
  ∀ position, parser ⟨input, .ok position⟩ = .ok (tree, ⟨rest, .ok position⟩)

theorem current_kind (input : List Token) (position : Position) :
    (Lexed.current ⟨input, .ok position⟩).kind = front input := by
  cases input <;> rfl

theorem current_toClass (input : List Token) (position : Position) :
    (Lexed.current ⟨input, .ok position⟩).toClass = (front input).toClass := by
  cases input <;> rfl

theorem Reads.bind_apply {first : Parser α} {input middle : List Token} {value : α}
    (hfirst : Reads first input middle value) (next : α → Parser β) (position : Position) :
    (first >>= next) ⟨input, .ok position⟩ = next value ⟨middle, .ok position⟩ := by
  change (first ⟨input, .ok position⟩ >>= fun p => next p.1 p.2) = _
  rw [hfirst position]
  rfl

theorem Reads.bind {first : Parser α} {next : α → Parser β} {input middle rest : List Token}
    {value : α} {tree : β} (hfirst : Reads first input middle value)
    (hnext : Reads (next value) middle rest tree) : Reads (first >>= next) input rest tree := by
  intro position
  rw [hfirst.bind_apply]
  exact hnext position

theorem reads_pure (input : List Token) (tree : α) : Reads (pure tree) input input tree :=
  fun _ => rfl

theorem reads_remaining (input : List Token) : Reads remaining input input input.length :=
  fun _ => rfl

theorem reads_current (token : Token) (rest : List Token) :
    Reads current (token :: rest) (token :: rest) token :=
  fun _ => rfl

theorem reads_advance (token : Token) (rest : List Token) :
    Reads advance (token :: rest) rest token := by
  intro position
  cases rest <;> rfl

theorem reads_isAt (expected : TokenClass) (input : List Token) :
    Reads (isAt expected) input input (decide ((front input).toClass = expected)) := by
  intro position
  rw [← current_toClass input position]
  rfl

theorem reads_isAt_true {expected : TokenClass} {input : List Token}
    (h : (front input).toClass = expected) : Reads (isAt expected) input input true := by
  simpa [h] using reads_isAt expected input

theorem reads_isAt_false {expected : TokenClass} {input : List Token}
    (h : (front input).toClass ≠ expected) : Reads (isAt expected) input input false := by
  simpa [h] using reads_isAt expected input

theorem reads_if_true {test : TokenClass → Bool} {yes no : Parser α} {input rest : List Token}
    {tree : α} (htest : test (front input).toClass = true) (hyes : Reads yes input rest tree) :
    Reads (current >>= fun token => if test token.toClass = true then yes else no) input rest
      tree := by
  intro position
  change (if test (Lexed.current ⟨input, .ok position⟩).toClass = true then yes else no) _ = _
  rw [current_toClass, if_pos htest]
  exact hyes position

theorem reads_if_false {test : TokenClass → Bool} {yes no : Parser α} {input rest : List Token}
    {tree : α} (htest : test (front input).toClass = false) (hno : Reads no input rest tree) :
    Reads (current >>= fun token => if test token.toClass = true then yes else no) input rest
      tree := by
  intro position
  change (if test (Lexed.current ⟨input, .ok position⟩).toClass = true then yes else no) _ = _
  rw [current_toClass, htest, if_neg Bool.false_ne_true]
  exact hno position

theorem reads_expect {expected : TokenClass} {token : Token} {rest : List Token}
    (h : token.toClass = expected) : Reads (expect expected) (token :: rest) rest token := by
  unfold expect
  refine (reads_isAt_true ?_).bind (reads_advance token rest)
  exact h

theorem reads_symbol {expected : Symbol} {position : Position} {rest : List Token} :
    Reads (symbol expected) (⟨.symbol expected, position⟩ :: rest) rest
      ⟨.symbol expected, position⟩ :=
  reads_expect rfl

theorem reads_keyword {expected : Keyword} {position : Position} {rest : List Token} :
    Reads (keyword expected) (⟨.keyword expected, position⟩ :: rest) rest
      ⟨.keyword expected, position⟩ :=
  reads_expect rfl

theorem reads_word {name : String} {position : Position} {rest : List Token} :
    Reads word (⟨.word name, position⟩ :: rest) rest name :=
  (reads_current _ _).bind ((reads_advance _ rest).bind (reads_pure _ _))

theorem reads_skipNewlines {input rest : List Token} (h : Newlines input rest)
    (hfront : front rest ≠ .newline) : Reads skipNewlines input rest () := by
  intro position
  have hdrop : input.dropWhile (·.kind = .newline) = rest := h.dropWhile_eq hfront
  unfold skipNewlines
  simp only [hdrop]
  cases rest <;> rfl

/-- What stands behind an item of a list: a newline, a comma or the closing symbol. -/
def EndsItem (closing : Symbol) (rest : List Token) : Prop :=
  front rest = .newline ∨ front rest = .symbol .comma ∨ front rest = .symbol closing

/-- What reading a list needs of its items: they consume tokens, start with neither a newline nor
the closing symbol, and are read where an item may end. -/
structure ReadsItem (closing : Symbol) (item : Parser α) (piece : Piece α) : Prop where
  consumes : Consumes piece.start piece.stop
  front_ne_newline : front piece.start ≠ .newline
  front_ne_closing : front piece.start ≠ .symbol closing
  reads : EndsItem closing piece.stop → Reads item piece.start piece.stop piece.tree

theorem endsItem_of_newlines {closing mark : Symbol} {position : Position}
    {stop rest : List Token} (h : Newlines stop (⟨.symbol mark, position⟩ :: rest))
    (hmark : mark = .comma ∨ mark = closing) : EndsItem closing stop := by
  rcases h.front_or with hfront | hfront
  · exact .inl hfront
  · rcases hmark with rfl | rfl
    · exact .inr (.inl hfront)
    · exact .inr (.inr hfront)

theorem toClass_ne_symbol {kind : TokenKind} {mark : Symbol} (h : kind ≠ .symbol mark) :
    kind.toClass ≠ .symbol mark := by
  cases kind <;> simp_all [TokenKind.toClass]

theorem reads_itemsUpTo {closing : Symbol} {item : Parser α} {input rest : List Token}
    {pieces : List (Piece α)} (hclosing : closing ≠ .comma)
    (hseparated : Separated closing input pieces rest)
    (hpieces : ∀ piece ∈ pieces, ReadsItem closing item piece) {rounds : Nat}
    (hrounds : input.length < rounds) :
    Reads (itemsUpTo closing item rounds) input rest (pieces.map Piece.tree) := by
  induction hseparated generalizing rounds with
  | close hnewlines =>
      obtain ⟨rounds, rfl⟩ := Nat.exists_eq_add_one_of_ne_zero (Nat.ne_zero_of_lt hrounds)
      refine (reads_skipNewlines hnewlines (by simp)).bind ?_
      refine (reads_isAt_true (by rfl)).bind ?_
      exact (reads_advance _ _).bind (reads_pure _ _)
  | @last _ _ _ piece hstart hstop =>
      obtain ⟨rounds, rfl⟩ := Nat.exists_eq_add_one_of_ne_zero (Nat.ne_zero_of_lt hrounds)
      have hpiece := hpieces piece (by simp)
      refine (reads_skipNewlines hstart hpiece.front_ne_newline).bind ?_
      refine (reads_isAt_false (toClass_ne_symbol hpiece.front_ne_closing)).bind ?_
      refine (hpiece.reads (endsItem_of_newlines hstop (.inr rfl))).bind ?_
      refine (reads_skipNewlines hstop (by simp)).bind ?_
      refine (reads_isAt_false (toClass_ne_symbol (by simpa using hclosing))).bind ?_
      exact reads_symbol.bind (reads_pure _ _)
  | @more _ _ middle _ piece pieces hstart hstop hseparated ih =>
      obtain ⟨rounds, rfl⟩ := Nat.exists_eq_add_one_of_ne_zero (Nat.ne_zero_of_lt hrounds)
      have hpiece := hpieces piece (by simp)
      have hmiddle : Consumes _ middle :=
        ((hpiece.consumes.of_suffix hstart.suffix).then_suffix hstop.suffix).of_cons
      have hrest := ih (fun other hother => hpieces other (by simp [hother]))
        (Nat.lt_of_lt_of_le hmiddle.2 (Nat.le_of_lt_succ hrounds))
      refine (reads_skipNewlines hstart hpiece.front_ne_newline).bind ?_
      refine (reads_isAt_false (toClass_ne_symbol hpiece.front_ne_closing)).bind ?_
      refine (hpiece.reads (endsItem_of_newlines hstop (.inl rfl))).bind ?_
      refine (reads_skipNewlines hstop (by simp)).bind ?_
      refine (reads_isAt_true (by rfl)).bind ?_
      exact (reads_advance _ _).bind (hrest.bind (reads_pure _ _))

theorem reads_commaList {closing : Symbol} {item : Parser α} {input rest : List Token}
    {pieces : List (Piece α)} (hclosing : closing ≠ .comma)
    (hseparated : Separated closing input pieces rest)
    (hpieces : ∀ piece ∈ pieces, ReadsItem closing item piece) :
    Reads (commaList closing item) input rest (pieces.map Piece.tree) :=
  (reads_remaining input).bind
    (reads_itemsUpTo hclosing hseparated hpieces (Nat.lt_succ_self _))

end Parser

end Bhasha
