import Bhasha.Token

/-!
# The layout of token lists

Newlines are tokens, and the grammar says where they may stand.  A relation of this grammar
holds between the tokens from some place on, the tokens from a later place on, and what stands
between the two places; the end of the list is the end of the input.  The relations below place
pieces, which may be anything that has a beginning and an end, between commas or on lines.
-/

namespace Bhasha

namespace Grammar

/-- Any number of newlines. -/
inductive Newlines : List Token → List Token → Prop where
  | none (rest : List Token) : Newlines rest rest
  | more {position : Position} {input rest : List Token} :
      Newlines input rest → Newlines (⟨.newline, position⟩ :: input) rest

/-- A piece of a token list: the tokens from its beginning on, those from its end on, and what
it stands for. -/
structure Piece (α : Type) where
  start : List Token
  stop : List Token
  tree : α

/-- Pieces with commas between them, up to a closing symbol.  Newlines may stand around every
piece, and a comma may follow the last one. -/
inductive Separated {α : Type} (closing : Symbol) :
    List Token → List (Piece α) → List Token → Prop where
  | close {position : Position} {input rest : List Token} :
      Newlines input (⟨.symbol closing, position⟩ :: rest) → Separated closing input [] rest
  | last {position : Position} {input rest : List Token} {piece : Piece α} :
      Newlines input piece.start →
      Newlines piece.stop (⟨.symbol closing, position⟩ :: rest) →
      Separated closing input [piece] rest
  | more {position : Position} {input middle rest : List Token} {piece : Piece α}
      {pieces : List (Piece α)} :
      Newlines input piece.start →
      Newlines piece.stop (⟨.symbol .comma, position⟩ :: middle) →
      Separated closing middle pieces rest →
      Separated closing input (piece :: pieces) rest

/-- Pieces one after the other, with any number of newlines before, between and behind them. -/
inductive Lines {α : Type} : List Token → List (Piece α) → List Token → Prop where
  | done {input rest : List Token} : Newlines input rest → Lines input [] rest
  | more {input rest : List Token} {piece : Piece α} {pieces : List (Piece α)} :
      Newlines input piece.start → Lines piece.stop pieces rest →
      Lines input (piece :: pieces) rest

/-- Pieces on lines in braces.  Newlines may precede the opening brace. -/
def Braced {α : Type} (input : List Token) (pieces : List (Piece α)) (rest : List Token) : Prop :=
  ∃ opening closing inner,
    Newlines input (⟨.symbol .leftBrace, opening⟩ :: inner) ∧
      Lines inner pieces (⟨.symbol .rightBrace, closing⟩ :: rest)

/-- What stands at the front. -/
def front : List Token → TokenKind
  | [] => .endOfInput
  | token :: _ => token.kind

/-- A phrase takes some tokens off the front, at least one. -/
def Consumes (input rest : List Token) : Prop :=
  rest <:+ input ∧ rest.length < input.length

/-- A single word. -/
def Word (input rest : List Token) (name : String) : Prop :=
  ∃ position, input = ⟨.word name, position⟩ :: rest

/-- Phrases of one sort with commas between them. -/
def CommaList {α : Type} (closing : Symbol) (phrase : List Token → List Token → α → Prop)
    (input rest : List Token) (trees : List α) : Prop :=
  ∃ pieces : List (Piece α),
    Separated closing input pieces rest ∧
      (∀ piece ∈ pieces, phrase piece.start piece.stop piece.tree) ∧
      trees = pieces.map Piece.tree

@[simp] theorem front_cons (token : Token) (rest : List Token) :
    front (token :: rest) = token.kind :=
  rfl

theorem Consumes.of_suffix {input middle rest : List Token} (h : Consumes middle rest)
    (hmiddle : middle <:+ input) : Consumes input rest :=
  ⟨h.1.trans hmiddle, Nat.lt_of_lt_of_le h.2 hmiddle.length_le⟩

theorem Consumes.then_suffix {input middle rest : List Token} (h : Consumes input middle)
    (hrest : rest <:+ middle) : Consumes input rest :=
  ⟨hrest.trans h.1, Nat.lt_of_le_of_lt hrest.length_le h.2⟩

theorem consumes_cons {token : Token} {input rest : List Token} (h : rest <:+ input) :
    Consumes (token :: input) rest :=
  ⟨h.trans (List.suffix_cons token input), Nat.lt_succ_of_le h.length_le⟩

/-- A phrase that starts with some given tokens takes them off. -/
theorem consumes_append {token : Token} {input rest : List Token} (tokens : List Token)
    (h : rest <:+ input) : Consumes (token :: (tokens ++ input)) rest :=
  consumes_cons (h.trans (List.suffix_append tokens input))

theorem Consumes.of_cons {token : Token} {input rest : List Token}
    (h : Consumes input (token :: rest)) : Consumes input rest :=
  h.then_suffix (List.suffix_cons token rest)

theorem Newlines.trans {first second third : List Token}
    (hfirst : Newlines first second) (hsecond : Newlines second third) : Newlines first third := by
  induction hfirst with
  | none => exact hsecond
  | more _ ih => exact .more (ih hsecond)

theorem Newlines.suffix {input rest : List Token} (h : Newlines input rest) : rest <:+ input := by
  induction h with
  | none => exact List.suffix_refl _
  | more _ ih => exact ih.trans (List.suffix_cons _ _)

/-- Of two places behind the same newlines, the one without a newline comes last. -/
theorem Newlines.of_same {input first last : List Token} (hfirst : Newlines input first)
    (hlast : Newlines input last) (hfront : front last ≠ .newline) : Newlines first last := by
  induction hfirst with
  | none => exact hlast
  | more _ ih =>
      cases hlast with
      | none => exact absurd rfl hfront
      | more hlast => exact ih hlast

/-- In front of newlines there is a newline, unless there are none. -/
theorem Newlines.front_or {input rest : List Token} (h : Newlines input rest) :
    front input = .newline ∨ front input = front rest := by
  cases h with
  | none => exact .inr rfl
  | more => exact .inl rfl

theorem Separated.start_suffix {α : Type} {closing : Symbol} {input rest : List Token}
    {pieces : List (Piece α)} (h : Separated closing input pieces rest)
    (hpieces : ∀ piece ∈ pieces, Consumes piece.start piece.stop) :
    ∀ piece ∈ pieces, piece.start <:+ input := by
  induction h with
  | close => simp
  | last hstart => simpa using hstart.suffix
  | @more _ input middle rest first pieces hstart hstop _ ih =>
      have hmiddle : middle <:+ input := by
        have hcomma := (hpieces first (by simp)).1.trans hstart.suffix
        exact (List.suffix_cons _ _).trans (hstop.suffix.trans hcomma)
      intro piece hpiece
      rcases List.mem_cons.mp hpiece with rfl | hpiece
      · exact hstart.suffix
      · exact (ih (fun other hother => hpieces other (by simp [hother])) piece hpiece).trans hmiddle

theorem Separated.consumes {α : Type} {closing : Symbol} {input rest : List Token}
    {pieces : List (Piece α)} (h : Separated closing input pieces rest)
    (hpieces : ∀ piece ∈ pieces, Consumes piece.start piece.stop) : Consumes input rest := by
  induction h with
  | close hnewlines => exact (consumes_cons (List.suffix_refl _)).of_suffix hnewlines.suffix
  | @last _ input rest piece hstart hstop =>
      have hpiece := (hpieces piece (by simp)).of_suffix hstart.suffix
      exact (hpiece.then_suffix hstop.suffix).of_cons
  | @more _ input middle rest piece pieces hstart hstop _ ih =>
      have hpiece := (hpieces piece (by simp)).of_suffix hstart.suffix
      have hmiddle := (hpiece.then_suffix hstop.suffix).of_cons
      exact hmiddle.then_suffix (ih fun other hother => hpieces other (by simp [hother])).1

theorem Lines.start_suffix {α : Type} {input rest : List Token} {pieces : List (Piece α)}
    (h : Lines input pieces rest) (hpieces : ∀ piece ∈ pieces, Consumes piece.start piece.stop) :
    ∀ piece ∈ pieces, piece.start <:+ input := by
  induction h with
  | done => simp
  | @more input rest first pieces hstart _ ih =>
      have hstop := (hpieces first (by simp)).1.trans hstart.suffix
      intro piece hpiece
      rcases List.mem_cons.mp hpiece with rfl | hpiece
      · exact hstart.suffix
      · exact (ih (fun other hother => hpieces other (by simp [hother])) piece hpiece).trans hstop

theorem Lines.suffix {α : Type} {input rest : List Token} {pieces : List (Piece α)}
    (h : Lines input pieces rest) (hpieces : ∀ piece ∈ pieces, Consumes piece.start piece.stop) :
    rest <:+ input := by
  induction h with
  | done hnewlines => exact hnewlines.suffix
  | @more input rest first pieces hstart _ ih =>
      have hstop := (hpieces first (by simp)).1.trans hstart.suffix
      exact (ih fun other hother => hpieces other (by simp [hother])).trans hstop

theorem Braced.consumes {α : Type} {input rest : List Token} {pieces : List (Piece α)}
    (h : Braced input pieces rest) (hpieces : ∀ piece ∈ pieces, Consumes piece.start piece.stop) :
    Consumes input rest := by
  obtain ⟨opening, closing, inner, hnewlines, hlines⟩ := h
  have hinner := (consumes_cons (hlines.suffix hpieces)).of_suffix hnewlines.suffix
  exact hinner.of_cons

/-- Newlines in front of the lines belong to them. -/
theorem Lines.of_newlines {α : Type} {first input rest : List Token} {pieces : List (Piece α)}
    (h : Lines input pieces rest) (hfirst : Newlines first input) : Lines first pieces rest := by
  cases h with
  | done hnewlines => exact .done (hfirst.trans hnewlines)
  | more hnewlines hlines => exact .more (hfirst.trans hnewlines) hlines

/-- Newlines behind the lines belong to them. -/
theorem Lines.then_newlines {α : Type} {input rest last : List Token} {pieces : List (Piece α)}
    (h : Lines input pieces rest) (hlast : Newlines rest last) : Lines input pieces last := by
  induction h with
  | done hnewlines => exact .done (hnewlines.trans hlast)
  | more hnewlines _ ih => exact .more hnewlines (ih hlast)

theorem newlines_dropWhile (input : List Token) :
    Newlines input (input.dropWhile (·.kind = .newline)) := by
  induction input with
  | nil => exact .none []
  | cons token rest ih =>
      obtain ⟨kind, position⟩ := token
      by_cases hkind : kind = .newline
      · subst hkind
        simpa using Newlines.more ih
      · simpa [hkind] using Newlines.none _

/-- Where no further newline follows, the newlines are all those at the front. -/
theorem Newlines.dropWhile_eq {input rest : List Token} (h : Newlines input rest)
    (hfront : front rest ≠ .newline) : input.dropWhile (·.kind = .newline) = rest := by
  induction h with
  | none rest =>
      cases rest with
      | nil => rfl
      | cons token rest =>
          have hkind : token.kind ≠ .newline := hfront
          simp [hkind]
  | more _ ih => simpa using ih hfront

end Grammar

end Bhasha
