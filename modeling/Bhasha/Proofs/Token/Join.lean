import Bhasha.Proofs.Token.Cut

/-!
# Lines of source text put together

A newline ends whatever stands in front of it, a comment too, except for a text that is not closed.
So a source text that is made of tokens can be put on the lines in front of another one, and the
tokens of both are what they were, those of the second further down.
-/

namespace Bhasha

/-- The position in another line. -/
def Position.relabel (label : Nat → Nat) (position : Position) : Position :=
  ⟨label position.line, position.column⟩

/-- The token in another line. -/
def Token.relabel (label : Nat → Nat) (token : Token) : Token :=
  ⟨token.kind, token.position.relabel label⟩

namespace Lexer

theorem after_relabel (lines : Nat) (position : Position) (text : List Char) :
    (position.relabel (· + lines)).after text = (position.after text).relabel (· + lines) := by
  induction text generalizing position with
  | nil => rfl
  | cons c rest ih =>
      have hnext : (position.relabel (· + lines)).next c =
          (position.next c).relabel (· + lines) := by
        unfold Position.next
        by_cases hc : c = '\n'
        · rw [if_pos hc, if_pos hc]
          exact congrArg (Position.mk · 1) (Nat.add_right_comm position.line lines 1)
        · rw [if_neg hc, if_neg hc]
          rfl
      rw [Position.after_cons, Position.after_cons, hnext, ih]

theorem lexFrom_skip {first : Char} {rest : List Char} {extra : Nat}
    (h : step first rest = .skip extra) (position : Position) :
    lexFrom position (first :: rest) =
      lexFrom (position.after (first :: rest.take extra)) (rest.drop extra) := by
  rw [lexFrom, h]

theorem lexFrom_token {first : Char} {rest : List Char} {kind : TokenKind} {extra : Nat}
    (h : step first rest = .token kind extra) {position last : Position} {tokens : List Token} :
    lexFrom position (first :: rest) = ⟨tokens, .ok last⟩ ↔
      ∃ later, lexFrom (position.after (first :: rest.take extra)) (rest.drop extra) =
          ⟨later, .ok last⟩ ∧
        tokens = ⟨kind, position⟩ :: later := by
  rw [lexFrom, h]
  constructor
  · intro hlex
    obtain ⟨rfl, hending⟩ := Lexed.mk.inj hlex
    exact ⟨_, by rw [← hending], rfl⟩
  · rintro ⟨later, hlex, rfl⟩
    simp only [hlex]

/-- Further down in a source text the tokens are the same. -/
theorem lexFrom_relabel {position last : Position} {text : List Char} {tokens : List Token}
    (lines : Nat) (h : lexFrom position text = ⟨tokens, .ok last⟩) :
    lexFrom (position.relabel (· + lines)) text =
      ⟨tokens.map (Token.relabel (· + lines)), .ok (last.relabel (· + lines))⟩ := by
  induction position, text using lexFrom.induct generalizing tokens with
  | case1 position =>
      rw [lexFrom] at h ⊢
      cases h
      rfl
  | case2 position first rest extra hstep ih =>
      rw [lexFrom_skip hstep] at h ⊢
      rw [after_relabel]
      exact ih h
  | case3 position first rest kind extra hstep ih =>
      obtain ⟨later, hlater, rfl⟩ := (lexFrom_token hstep).mp h
      have hbelow := ih hlater
      rw [← after_relabel] at hbelow
      exact (lexFrom_token hstep).mpr ⟨_, hbelow, rfl⟩
  | case4 position first rest hstep =>
      rw [lexFrom, hstep] at h
      cases h
  | case5 position first rest hstep =>
      rw [lexFrom, hstep] at h
      cases h

theorem takeWhile_append_newline {part : Char → Bool} (hnewline : part '\n' = false)
    (text more : List Char) : (text ++ '\n' :: more).takeWhile part = text.takeWhile part := by
  induction text with
  | nil => simp [hnewline]
  | cons c rest ih => cases hc : part c <;> simp [hc, ih]

theorem dropWhile_append_newline {part : Char → Bool} (hnewline : part '\n' = false)
    (text more : List Char) :
    (text ++ '\n' :: more).dropWhile part = text.dropWhile part ++ '\n' :: more := by
  induction text with
  | nil => simp [hnewline]
  | cons c rest ih => cases hc : part c <;> simp [hc, ih]

theorem numberStep_append (first : Char) (text more : List Char) :
    numberStep first (text ++ '\n' :: more) = numberStep first text := by
  have hdigit : Char.isDigit '\n' = false := rfl
  unfold numberStep
  rw [takeWhile_append_newline hdigit, dropWhile_append_newline hdigit]
  cases hdrop : text.dropWhile Char.isDigit with
  | nil => rfl
  | cons c rest =>
      by_cases hc : c = '.'
      · subst hc
        simp only [List.cons_append, takeWhile_append_newline hdigit]
      · simp [hc]

theorem wordStep_append (first : Char) (text more : List Char) :
    wordStep first (text ++ '\n' :: more) = wordStep first text := by
  have hpart : isWordPart '\n' = false := rfl
  unfold wordStep
  rw [takeWhile_append_newline hpart]

theorem closeText?_append {quote : Char} {text : List Char} {closed : List Char × Nat}
    (h : closeText? quote text = some closed) (more : List Char) :
    closeText? quote (text ++ more) = some closed := by
  fun_induction closeText? quote text generalizing closed with
  | case1 => cases h
  | case2 rest =>
      rw [List.cons_append, closeText?.eq_def]
      simpa using h
  | case3 => cases h
  | case4 escaped rest hquote ih =>
      obtain ⟨inner, hinner, hresult⟩ := Option.map_eq_some_iff.mp h
      rw [List.cons_append, List.cons_append, closeText?.eq_def]
      simp [hquote, ih hinner, hresult]
  | case5 c rest hquote hplain ih =>
      obtain ⟨inner, hinner, hresult⟩ := Option.map_eq_some_iff.mp h
      rw [List.cons_append, closeText?.eq_def]
      simp [hquote, hplain, ih hinner, hresult]

theorem textStep_append {quote : Char} {text : List Char}
    (h : textStep quote text ≠ .unterminated) (more : List Char) :
    textStep quote (text ++ more) = textStep quote text := by
  unfold textStep at h ⊢
  cases hclose : closeText? quote text with
  | none => simp [hclose] at h
  | some closed => rw [closeText?_append hclose]

/-- A symbol of two characters is told by the second one. -/
theorem symbolStep_append (first : Char) (text more : List Char) :
    symbolStep first (text ++ '\n' :: more) = symbolStep first text := by
  cases text with
  | nil =>
      unfold symbolStep
      split <;> simp_all
  | cons second rest =>
      unfold symbolStep
      split <;> simp_all

/-- A newline behind a source text changes no step in it, unless a text is not closed. -/
theorem step_append {first : Char} {text : List Char} (h : step first text ≠ .unterminated)
    (more : List Char) : step first (text ++ '\n' :: more) = step first text := by
  unfold step at h ⊢
  rw [numberStep_append, wordStep_append, symbolStep_append,
    takeWhile_append_newline (by decide)]
  by_cases hword : isWordStart first = true
  · simp only [if_pos hword]
  by_cases hdigit : first.isDigit = true
  · simp only [if_pos hdigit]
  by_cases hquote : first = '"' ∨ first = '\''
  · have hspaceless : isBlank first = false ∧ first ≠ '#' ∧ first ≠ '\n' := by
      rcases hquote with rfl | rfl <;> decide
    obtain ⟨hblank, hcomment, hnewline⟩ := hspaceless
    simp only [hblank, hcomment, hnewline, hdigit, hword, hquote, if_true, if_false,
      Bool.false_eq_true] at h ⊢
    exact textStep_append h _
  · simp only [if_neg hquote]

theorem step_join {first : Char} {text : List Char} {taken : Step} (h : step first text = taken)
    (hclosed : taken ≠ .unterminated) (more : List Char) :
    step first (text ++ '\n' :: more) = taken ∧ taken.extra ≤ text.length := by
  subst h
  exact ⟨step_append hclosed more, step_extra_le first text⟩

/-- The tokens of a source text with a newline and further lines behind it. -/
theorem lexFrom_join {position last final : Position} {text more : List Char}
    {tokens others : List Token} (h : lexFrom position text = ⟨tokens, .ok last⟩)
    (hmore : lexFrom (last.next '\n') more = ⟨others, .ok final⟩) :
    lexFrom position (text ++ '\n' :: more) =
      ⟨tokens ++ ⟨.newline, last⟩ :: others, .ok final⟩ := by
  induction position, text using lexFrom.induct generalizing tokens with
  | case1 position =>
      rw [lexFrom] at h
      cases h
      have hnewline : step '\n' more = .token .newline 0 := rfl
      exact (lexFrom_token hnewline).mpr ⟨others, hmore, rfl⟩
  | case2 position first rest extra hstep ih =>
      obtain ⟨hjoined, hextra⟩ := step_join hstep (by simp) more
      rw [lexFrom_skip hstep] at h
      rw [Step.extra] at hextra
      rw [List.cons_append, lexFrom_skip hjoined, List.take_append_of_le_length hextra,
        List.drop_append_of_le_length hextra]
      exact ih h
  | case3 position first rest kind extra hstep ih =>
      obtain ⟨hjoined, hextra⟩ := step_join hstep (by simp) more
      obtain ⟨later, hlater, rfl⟩ := (lexFrom_token hstep).mp h
      refine (lexFrom_token hjoined).mpr ⟨later ++ ⟨.newline, last⟩ :: others, ?_, rfl⟩
      rw [Step.extra] at hextra
      rw [List.take_append_of_le_length hextra, List.drop_append_of_le_length hextra]
      exact ih hlater
  | case4 position first rest hstep =>
      rw [lexFrom, hstep] at h
      cases h
  | case5 position first rest hstep =>
      rw [lexFrom, hstep] at h
      cases h

end Lexer

end Bhasha
