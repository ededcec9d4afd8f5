import Bhasha.Proofs.Parser.Place

/-!
# Parsers on the beginning of their input

A source text may be cut off behind some of its tokens, as if it went on with something that is no
token.  A parser does on the beginning what it does on the whole, until it has taken the last token
of the beginning.  This holds although repetitions are bounded by the number of tokens left, which
is not the same in both runs, as the bounds are never reached.

Two parsers are in lockstep if this holds of one on the whole and the other on the beginning.  They
are the same but for their bounds.  Along with this goes how many tokens the inputs have at most,
and how many the parsers take at least when they end well.
-/

namespace Bhasha

/-- Another input starts with the kinds of these tokens, and has no other tokens unless these end
in a lexical error. -/
structure Lexed.Begins (front whole : Lexed) : Prop where
  kinds : front.tokens.map Token.kind <+: whole.tokens.map Token.kind
  all : ∀ position, front.ending = .ok position →
    whole.tokens.length = front.tokens.length ∧ ∃ last, whole.ending = .ok last

namespace Lexed.Begins

variable {front whole : Lexed} (h : front.Begins whole)

include h

theorem length_le : front.tokens.length ≤ whole.tokens.length := by
  have hlength := h.kinds.length_le
  rwa [List.length_map, List.length_map] at hlength

theorem drop (count : Nat) : (front.drop count).Begins (whole.drop count) where
  kinds := by
    obtain ⟨later, hkinds⟩ := h.kinds
    simp only [Lexed.drop, List.map_drop]
    rw [← hkinds, List.drop_append]
    exact List.prefix_append _ _
  all position hending := by
    obtain ⟨hlength, hlast⟩ := h.all position hending
    rw [length_drop, length_drop, hlength]
    exact ⟨rfl, hlast⟩

theorem front_eq (hfront : front.Settled) :
    whole.Settled ∧ whole.current.kind = front.current.kind := by
  obtain ⟨tokens, ending⟩ := front
  obtain ⟨others, last⟩ := whole
  cases tokens with
  | cons token rest =>
      cases others with
      | nil => exact absurd h.length_le (by simp)
      | cons other later =>
          have hkinds := h.kinds
          simp only [List.map_cons, List.cons_prefix_cons] at hkinds
          exact ⟨rfl, hkinds.1.symm⟩
  | nil =>
      cases ending with
      | error error => exact absurd hfront (not_settled_cut error)
      | ok position =>
          obtain ⟨hlength, final, hfinal⟩ := h.all position rfl
          simp only [List.length_nil, List.length_eq_zero_iff] at hlength hfinal
          subst hlength hfinal
          exact ⟨rfl, rfl⟩

end Lexed.Begins

namespace Parser

variable {α β : Type} {whole front : Lexed}

/-- How a parser on some input and one on its beginning end: at the same place, after some tokens
at least, or with the same complaint about the same token, or the one on the beginning has come to
its last token and the other one this far at least. -/
inductive Alongside (least : Nat) (whole front : Lexed) :
    Except ParseError (α × Lexed) → Except ParseError (α × Lexed) → Prop where
  | ok {count : Nat} {value other : α} :
      least ≤ count → count ≤ front.tokens.length → (front.drop count).Settled →
      Alongside least whole front (.ok (value, whole.drop count)) (.ok (other, front.drop count))
  | refused {count : Nat} {cause : TokenClass → SyntaxCause} :
      count ≤ front.tokens.length → (front.drop count).Settled →
      Alongside least whole front (.error (.grammar (refusal cause (whole.drop count))))
        (.error (.grammar (refusal cause (front.drop count))))
  | cut {count : Nat} {error : LexicalError} {result : Except ParseError (α × Lexed)} :
      front.ending = .error error → front.tokens.length ≤ count → EndsAfter whole count result →
      Alongside least whole front result (.error (.lexical error))

theorem Alongside.add {count least more : Nat} {result other : Except ParseError (α × Lexed)}
    (h : Alongside more (whole.drop count) (front.drop count) result other)
    (hbegins : front.Begins whole) (hleast : least ≤ count)
    (hcount : count ≤ front.tokens.length) :
    Alongside (least + more) whole front result other := by
  have hlength := front.length_drop count
  have hle := hbegins.length_le
  cases h with
  | @ok later _ _ hmore hlater hsettled =>
      rw [Lexed.drop_drop] at hsettled
      rw [Lexed.drop_drop, Lexed.drop_drop]
      exact .ok (by omega) (by omega) hsettled
  | @refused later _ hlater hsettled =>
      rw [Lexed.drop_drop] at hsettled
      rw [Lexed.drop_drop, Lexed.drop_drop]
      exact .refused (by omega) hsettled
  | @cut later _ _ hending hlater hends =>
      exact .cut hending (by omega) (hends.add (by omega))

theorem Alongside.mono {least less : Nat} {result other : Except ParseError (α × Lexed)}
    (h : Alongside least whole front result other) (hless : less ≤ least) :
    Alongside less whole front result other := by
  cases h with
  | ok hleast hcount hsettled => exact .ok (Nat.le_trans hless hleast) hcount hsettled
  | refused hcount hsettled => exact .refused hcount hsettled
  | cut hending hcount hends => exact .cut hending hcount hends

theorem alongside_here (hfront : front.Settled) (value other : α) :
    Alongside 0 whole front (.ok (value, whole)) (.ok (other, front)) :=
  @Alongside.ok α 0 whole front 0 value other (Nat.zero_le _) (Nat.zero_le _) hfront

/-- On fewer than so many tokens, with a first one as described, the first parser on some input and
the second one on its beginning go along with each other. -/
structure Lockstep (here : TokenKind → Prop) (most most' least : Nat) (parser other : Parser α) :
    Prop where
  composed : Composed parser
  alongside : ∀ whole front : Lexed, front.Begins whole → front.Settled →
    whole.tokens.length < most → front.tokens.length < most' → here front.current.kind →
    Alongside least whole front (parser whole) (other front)

def Anywhere (_ : TokenKind) : Prop :=
  True

variable {here : TokenKind → Prop} {most most' least more : Nat}

theorem Lockstep.mono {parser other : Parser α} {fewer fewer' less : Nat}
    (h : Lockstep here most most' least parser other) (hfewer : fewer ≤ most)
    (hfewer' : fewer' ≤ most') (hless : less ≤ least) :
    Lockstep here fewer fewer' less parser other where
  composed := h.composed
  alongside whole front hbegins hfront hwhole hlength hhere :=
    (h.alongside whole front hbegins hfront (by omega) (by omega) hhere).mono hless

theorem Lockstep.of_anywhere {parser other : Parser α}
    (h : Lockstep Anywhere most most' least parser other) :
    Lockstep here most most' least parser other where
  composed := h.composed
  alongside whole front hbegins hfront hwhole hlength _ :=
    h.alongside whole front hbegins hfront hwhole hlength trivial

theorem lockstep_of_no_input {parser other : Parser α} (hcomposed : Composed parser)
    (hmost : most = 0 ∨ most' = 0) : Lockstep here most most' least parser other where
  composed := hcomposed
  alongside whole front hbegins hfront hwhole hlength _ := by omega

theorem lockstep_pure (value other : α) :
    Lockstep here most most' 0 (pure value : Parser α) (pure other) where
  composed := .pure value
  alongside _ _ _ hfront _ _ _ := alongside_here hfront value other

theorem lockstep_fail (cause : TokenClass → SyntaxCause) :
    Lockstep here most most' least (fail cause : Parser α) (fail cause) where
  composed := .fail cause
  alongside whole front _ hfront _ _ _ :=
    @Alongside.refused α least whole front 0 cause (Nat.zero_le _) hfront

theorem Lockstep.bind {first first' : Parser α} {next next' : α → Parser β}
    (h : Lockstep here most most' least first first')
    (hnext : ∀ value other,
      Lockstep Anywhere (most - least) (most' - least) more (next value) (next' other)) :
    Lockstep here most most' (least + more) (first >>= next) (first' >>= next') where
  composed := h.composed.bind fun value => (hnext value value).composed
  alongside whole front hbegins hfront hwhole hlength hhere := by
    have hle := hbegins.length_le
    have hfirst := h.alongside whole front hbegins hfront hwhole hlength hhere
    generalize hresult : first whole = result at hfirst
    generalize hresult' : first' front = result' at hfirst
    cases hfirst with
    | @ok count value other hleast hcount hsettled =>
        rw [bind_apply_ok hresult, bind_apply_ok hresult']
        have hlater := (hnext value other).alongside _ _ (hbegins.drop count) hsettled
          (by rw [Lexed.length_drop]; omega) (by rw [Lexed.length_drop]; omega) trivial
        exact hlater.add hbegins hleast hcount
    | refused hcount hsettled =>
        rw [bind_apply_error hresult, bind_apply_error hresult']
        exact .refused hcount hsettled
    | @cut count error result hending hcount hends =>
        rw [bind_apply_error hresult']
        cases result with
        | error error =>
            rw [bind_apply_error hresult]
            exact .cut hending hcount hends.of_error
        | ok read =>
            obtain ⟨hreadCount, hread, hsettled⟩ := hends
            obtain ⟨later, hlater⟩ := (hnext read.1 read.1).composed.exists_endsAfter hsettled
            rw [bind_apply_ok hresult]
            rw [hread] at hlater ⊢
            exact .cut hending (Nat.le_add_right_of_le hcount) (hlater.add hreadCount)

/-- After a token has been taken there is one less. -/
theorem Lockstep.after {first first' : Parser α} {next next' : α → Parser β}
    (h : Lockstep here most most' 1 first first')
    (hnext : ∀ value other,
      Lockstep Anywhere (most - 1) (most' - 1) 0 (next value) (next' other)) :
    Lockstep here most most' 1 (first >>= next) (first' >>= next') :=
  h.bind hnext

theorem Lockstep.before {first first' : Parser α} {next next' : α → Parser β}
    (h : Lockstep here most most' 0 first first')
    (hnext : ∀ value other, Lockstep Anywhere most most' least (next value) (next' other)) :
    Lockstep here most most' least (first >>= next) (first' >>= next') :=
  (h.bind hnext).mono (Nat.le_refl _) (Nat.le_refl _) (Nat.le_add_left least 0)

theorem Lockstep.loose {parser other : Parser α} (h : Lockstep here most most' 1 parser other) :
    Lockstep here most most' 0 parser other :=
  h.mono (Nat.le_refl _) (Nat.le_refl _) (Nat.zero_le _)

theorem Lockstep.fewer {parser other : Parser α} {fewer fewer' : Nat}
    (h : Lockstep Anywhere most most' least parser other) (hfewer : fewer ≤ most)
    (hfewer' : fewer' ≤ most') : Lockstep here fewer fewer' least parser other :=
  (h.mono hfewer hfewer' (Nat.le_refl _)).of_anywhere

theorem lockstep_current {next next' : Token → Parser α}
    (h : ∀ kind position position', Lockstep (· = kind) most most' least (next ⟨kind, position⟩)
      (next' ⟨kind, position'⟩)) :
    Lockstep here most most' least (current >>= next) (current >>= next') where
  composed := Composed.current.bind fun token => (h token.kind token.position ⟨0, 0⟩).composed
  alongside whole front hbegins hfront hwhole hlength _ := by
    have hkind := (hbegins.front_eq hfront).2
    have hboth := h front.current.kind whole.current.position front.current.position
    have hwholeCurrent : (⟨front.current.kind, whole.current.position⟩ : Token) =
        whole.current := by
      rw [← hkind]
    have halong := hboth.alongside whole front hbegins hfront hwhole hlength rfl
    rw [hwholeCurrent] at halong
    exact halong

theorem lockstep_ite {condition : Prop} [Decidable condition] {yes yes' no no' : Parser α}
    (hyes : condition → Lockstep here most most' least yes yes')
    (hno : ¬condition → Lockstep here most most' least no no') :
    Lockstep here most most' least (if condition then yes else no)
      (if condition then yes' else no') := by
  by_cases h : condition
  · rw [if_pos h, if_pos h]
    exact hyes h
  · rw [if_neg h, if_neg h]
    exact hno h

theorem lockstep_ifAt {expected : TokenClass} {yes yes' no no' : Parser α}
    (hyes : Lockstep (·.toClass = expected) most most' least yes yes')
    (hno : Lockstep Anywhere most most' least no no') :
    Lockstep here most most' least (isAt expected >>= fun found => if found then yes else no)
      (isAt expected >>= fun found => if found then yes' else no') where
  composed := by
    refine (composed_isAt expected).bind fun found => ?_
    cases found with
    | true => exact hyes.composed
    | false => exact hno.composed
  alongside whole front hbegins hfront hwhole hlength _ := by
    have hkind := (hbegins.front_eq hfront).2
    have hclass : whole.current.toClass = front.current.toClass := congrArg TokenKind.toClass hkind
    have hisAt (input : Lexed) :
        isAt expected input = .ok (decide (input.current.toClass = expected), input) := rfl
    rw [bind_apply_ok (hisAt whole), bind_apply_ok (hisAt front), hclass]
    by_cases hfound : front.current.toClass = expected
    · simp only [hfound, decide_true, if_true]
      exact hyes.alongside whole front hbegins hfront hwhole hlength hfound
    · simp only [hfound, decide_false, Bool.false_eq_true, if_false]
      exact hno.alongside whole front hbegins hfront hwhole hlength trivial

theorem alongside_settle {count : Nat} (hbegins : front.Begins whole)
    (hcount : count ≤ front.tokens.length) (value other : α) :
    Alongside count whole front
      (do
        let next ← (whole.drop count).settle
        .ok (value, next))
      (do
        let next ← (front.drop count).settle
        .ok (other, next)) := by
  have hle := hbegins.length_le
  rcases (front.drop count).settled_or_cut with hsettled | ⟨error, hcut⟩
  · have hwhole := ((hbegins.drop count).front_eq hsettled).1
    unfold Lexed.Settled at hsettled hwhole
    rw [hsettled, hwhole]
    exact .ok (Nat.le_refl _) hcount hsettled
  · have hlength := front.length_drop count
    have hending := front.ending_drop count
    rw [hcut] at hlength hending ⊢
    have hlast : front.tokens.length - count = 0 := hlength.symm
    exact .cut hending.symm (by omega) (endsAfter_settle (by omega) value)

theorem advance_apply (input : Lexed) :
    advance input = (do
      let next ← (input.drop 1).settle
      .ok (input.current, next)) := by
  unfold advance Lexed.drop
  rw [List.drop_one]

theorem lockstep_advance (hhere : ∀ kind, here kind → kind ≠ .endOfInput) :
    Lockstep here most most' 1 advance advance where
  composed := .advance
  alongside whole front hbegins hfront _ _ hkind := by
    have hlength : 1 ≤ front.tokens.length := by
      rw [eq_cons_of_current rfl (hhere _ hkind)]
      exact Nat.le_add_left 1 _
    rw [advance_apply, advance_apply]
    exact alongside_settle hbegins hlength whole.current front.current

/-- The number of newlines at the front. -/
def newlines (input : Lexed) : Nat :=
  ((input.tokens.map Token.kind).takeWhile (· = .newline)).length

theorem skipNewlines_apply (input : Lexed) :
    skipNewlines input = (do
      let next ← (input.drop (newlines input)).settle
      .ok ((), next)) := by
  have hdrop : input.tokens.dropWhile (·.kind = .newline) =
      input.tokens.drop (newlines input) := by
    unfold newlines
    induction input.tokens with
    | nil => rfl
    | cons token rest ih => by_cases hkind : token.kind = .newline <;> simp [hkind, ih]
  unfold skipNewlines Lexed.drop
  rw [hdrop]

theorem newlines_le (input : Lexed) : newlines input ≤ input.tokens.length := by
  have hlength := (List.takeWhile_prefix (p := (· = .newline))
    (l := input.tokens.map Token.kind)).length_le
  rwa [List.length_map] at hlength

/-- The beginning has the same newlines at its front, or consists of newlines only. -/
theorem newlines_of_begins (hbegins : front.Begins whole) :
    newlines whole = newlines front ∨
      newlines front = front.tokens.length ∧ front.tokens.length ≤ newlines whole ∧
        ∃ error, front.ending = .error error := by
  obtain ⟨later, hkinds⟩ := hbegins.kinds
  have hwhole := newlines_le whole
  have hnewlines : newlines whole = if newlines front = front.tokens.length
      then front.tokens.length + (later.takeWhile (· = .newline)).length else newlines front := by
    unfold newlines
    rw [← hkinds, List.takeWhile_append, List.length_map]
    split <;> simp
  by_cases hall : newlines front = front.tokens.length
  · rw [if_pos hall] at hnewlines
    cases hending : front.ending with
    | error error => exact .inr ⟨hall, by omega, error, rfl⟩
    | ok position =>
        have hlength := (hbegins.all position hending).1
        exact .inl (by omega)
  · rw [if_neg hall] at hnewlines
    exact .inl hnewlines

theorem lockstep_skipNewlines : Lockstep here most most' 0 skipNewlines skipNewlines where
  composed := .skipNewlines
  alongside whole front hbegins hfront _ _ _ := by
    rw [skipNewlines_apply, skipNewlines_apply]
    rcases newlines_of_begins hbegins with hsame | ⟨hfrontAll, hall, error, hending⟩
    · rw [hsame]
      exact (alongside_settle hbegins (newlines_le front) () ()).mono (Nat.zero_le _)
    · have hcut : (front.drop (newlines front)).settle = .error (.lexical error) := by
        rw [hfrontAll]
        unfold Lexed.drop Lexed.settle
        rw [List.drop_length, hending]
      rw [hcut]
      exact .cut hending hall (endsAfter_settle (newlines_le whole) ())

theorem lockstep_remaining {next next' : Nat → Parser α} (hcomposed : ∀ count, Composed (next count))
    (h : ∀ count count', count < most → count' < most' →
      Lockstep here (count + 1) (count' + 1) least (next count) (next' count')) :
    Lockstep here most most' least (remaining >>= next) (remaining >>= next') where
  composed := Composed.remaining.bind hcomposed
  alongside whole front hbegins hfront hwhole hlength hhere :=
    (h _ _ hwhole hlength).alongside whole front hbegins hfront (Nat.lt_succ_self _)
      (Nat.lt_succ_self _) hhere

theorem no_tokens_of_begins (hbegins : front.Begins whole) (hfront : front.Settled)
    (hone : front.tokens = []) : whole.tokens = [] := by
  cases hending : front.ending with
  | error error =>
      have hcut : front = ⟨[], .error error⟩ := by rw [← hone, ← hending]
      exact absurd hfront (hcut ▸ Lexed.not_settled_cut error)
  | ok position =>
      have hlength := (hbegins.all position hending).1
      rw [hone] at hlength
      exact List.eq_nil_of_length_eq_zero hlength

theorem Lockstep.at_end {parser parser' other other' : Parser α}
    (h : Lockstep here most most' least parser other) (hcomposed : Composed parser')
    (hmost : most ≤ 1 ∨ most' ≤ 1)
    (hparser : ∀ input : Lexed, input.tokens = [] → parser' input = parser input)
    (hother : ∀ input : Lexed, input.tokens = [] → other' input = other input) :
    Lockstep here most most' least parser' other' where
  composed := hcomposed
  alongside whole front hbegins hfront hwhole hlength hhere := by
    have hle := hbegins.length_le
    have hfrontTokens : front.tokens = [] := List.eq_nil_of_length_eq_zero (by omega)
    have hwholeTokens := no_tokens_of_begins hbegins hfront hfrontTokens
    rw [hparser whole hwholeTokens, hother front hfrontTokens]
    exact h.alongside whole front hbegins hfront hwhole hlength hhere

end Parser

end Bhasha
