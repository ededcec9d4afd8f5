import Bhasha.Proofs.Token.Spelling
import Mathlib.Data.List.TakeWhile

/-!
# Longest match

The patterns of the tokens say which texts can be a token of which kind.  Where a source text
begins with such a text, the lexer reads a token, and it reads on as long as any pattern does.  That
no word is cut short and that a symbol of two characters is preferred to one follows from this
alone.
-/

namespace Bhasha

theorem Keyword.spelling_of_ofWord? {word : String} {reserved : Keyword}
    (h : ofWord? word = some reserved) : reserved.spelling = word := by
  have hfound := List.find?_some h
  exact eq_of_beq hfound

theorem Keyword.ofWord?_eq_none_iff {word : String} :
    ofWord? word = none ↔ ∀ reserved : Keyword, reserved.spelling ≠ word := by
  have hall : ∀ reserved : Keyword, reserved ∈ all := by
    intro reserved
    cases reserved <;> decide
  unfold ofWord?
  rw [List.find?_eq_none]
  exact ⟨fun h reserved hsame => h reserved (hall reserved) (beq_iff_eq.mpr hsame),
    fun h reserved _ hsame => h reserved (eq_of_beq hsame)⟩

namespace Lexer

/-- What stands between an opening quote and the end of a literal, with the value: characters that
stand for themselves, characters behind a backslash, and the quote that closes the text. -/
inductive Quoted (quote : Char) : List Char → List Char → Prop where
  | close : Quoted quote [quote] []
  | plain {c : Char} {body value : List Char} : c ≠ quote → c ≠ '\\' → Quoted quote body value →
      Quoted quote (c :: body) (c :: value)
  | escaped {c : Char} {body value : List Char} : Quoted quote body value →
      Quoted quote ('\\' :: c :: body) (unescape c :: value)

/-- The texts that a token of a kind may be read from. -/
inductive Lexeme : TokenKind → List Char → Prop where
  | number (numeral : Numeral) : Lexeme (.number numeral.value) numeral.spelling
  | text (quote : Quote) {body value : List Char} : Quoted quote.mark body value →
      Lexeme (.text (String.ofList value)) (quote.mark :: body)
  | word {first : Char} {tail : List Char} : isWordStart first = true →
      (∀ c ∈ tail, isWordPart c = true) → Keyword.ofWord? (String.ofList (first :: tail)) = none →
      Lexeme (.word (String.ofList (first :: tail))) (first :: tail)
  | keyword (reserved : Keyword) : Lexeme (.keyword reserved) reserved.spelling.toList
  | symbol (mark : Symbol) : Lexeme (.symbol mark) mark.spelling.toList
  | newline : Lexeme .newline ['\n']

/-- A text is read as a token of a kind, and no pattern reads on. -/
structure LongestMatch (kind : TokenKind) (text following : List Char) : Prop where
  lexeme : Lexeme kind text
  longest : ∀ other lexeme, Lexeme other lexeme → lexeme <+: text ++ following →
    lexeme.length ≤ text.length

variable {kind : TokenKind} {first : Char} {rest following text : List Char} {extra : Nat}

theorem take_length_takeWhile (part : Char → Bool) (text : List Char) :
    text.take (text.takeWhile part).length = text.takeWhile part :=
  (List.prefix_iff_eq_take.mp (List.takeWhile_prefix part)).symm

theorem quoted_of_closeText? {quote : Char} {value : List Char} {size : Nat}
    (h : closeText? quote rest = some (value, size)) : Quoted quote (rest.take size) value := by
  fun_induction closeText? quote rest generalizing value size with
  | case1 | case3 => cases h
  | case2 rest =>
      cases h
      exact .close
  | case4 escaped rest _ ih =>
      obtain ⟨⟨inner, count⟩, hinner, hresult⟩ := Option.map_eq_some_iff.mp h
      cases hresult
      exact .escaped (ih hinner)
  | case5 c rest hquote hplain ih =>
      obtain ⟨⟨inner, count⟩, hinner, hresult⟩ := Option.map_eq_some_iff.mp h
      cases hresult
      exact .plain hquote hplain (ih hinner)

theorem closeText?_of_quoted {quote : Char} {body value : List Char} (hquote : '\\' ≠ quote)
    (h : Quoted quote body value) (following : List Char) :
    closeText? quote (body ++ following) = some (value, body.length) := by
  induction h with
  | close => exact closeText?_mark quote following
  | plain hmark hplain _ ih =>
      rw [List.cons_append, closeText?_plain hmark hplain, ih]
      rfl
  | escaped _ ih =>
      rw [List.cons_append, List.cons_append, closeText?_backslash hquote, ih]
      rfl

theorem lexeme_of_numberStep (hfirst : first.isDigit = true)
    (h : numberStep first rest = .token kind extra) : Lexeme kind (first :: rest.take extra) := by
  have hwhole : ∀ c ∈ rest.takeWhile Char.isDigit, c.isDigit = true :=
    fun c hc => List.mem_takeWhile_imp hc
  have hrest := (List.takeWhile_append_dropWhile (p := Char.isDigit) (l := rest)).symm
  unfold numberStep at h
  simp only at h
  split at h
  · next afterPoint hdrop =>
      cases h
      have hafter := (List.takeWhile_append_dropWhile (p := Char.isDigit) (l := afterPoint)).symm
      have hfraction : ∀ digits ∈ some (afterPoint.takeWhile Char.isDigit), ∀ c ∈ digits,
          c.isDigit = true := by
        intro digits hdigits c hc
        cases hdigits
        exact List.mem_takeWhile_imp hc
      have htaken : rest.take ((rest.takeWhile Char.isDigit).length + 1 +
          (afterPoint.takeWhile Char.isDigit).length) =
          rest.takeWhile Char.isDigit ++ '.' :: afterPoint.takeWhile Char.isDigit := by
        have hsplit : rest = (rest.takeWhile Char.isDigit ++
            '.' :: afterPoint.takeWhile Char.isDigit) ++ afterPoint.dropWhile Char.isDigit := by
          rw [List.append_assoc, List.cons_append, ← hafter, ← hdrop]
          exact hrest
        have hlength : (rest.takeWhile Char.isDigit ++
            '.' :: afterPoint.takeWhile Char.isDigit).length =
            (rest.takeWhile Char.isDigit).length + 1 +
              (afterPoint.takeWhile Char.isDigit).length := by
          rw [List.length_append, List.length_cons]
          omega
        rw [← hlength]
        exact List.prefix_iff_eq_take.mp ⟨_, hsplit.symm⟩ |>.symm
      rw [htaken]
      exact .number ⟨first, rest.takeWhile Char.isDigit, some (afterPoint.takeWhile Char.isDigit),
        hfirst, hwhole, hfraction⟩
  · cases h
    rw [take_length_takeWhile]
    exact .number ⟨first, rest.takeWhile Char.isDigit, none, hfirst, hwhole, fun _ h => nomatch h⟩

theorem lexeme_of_wordStep (hfirst : isWordStart first = true)
    (h : wordStep first rest = .token kind extra) : Lexeme kind (first :: rest.take extra) := by
  have htail : ∀ c ∈ rest.takeWhile isWordPart, isWordPart c = true :=
    fun c hc => List.mem_takeWhile_imp hc
  unfold wordStep at h
  simp only at h
  split at h
  · next reserved hreserved =>
      cases h
      have hspelling := Keyword.spelling_of_ofWord? hreserved
      rw [take_length_takeWhile, ← String.toList_ofList (l := first :: rest.takeWhile isWordPart), ← hspelling]
      exact .keyword reserved
  · next hname =>
      cases h
      rw [take_length_takeWhile]
      exact .word hfirst htail hname

theorem lexeme_of_textStep {quote : Quote} (h : textStep quote.mark rest = .token kind extra) :
    Lexeme kind (quote.mark :: rest.take extra) := by
  unfold textStep at h
  split at h
  · next value size hclose =>
      cases h
      exact .text quote (quoted_of_closeText? hclose)
  · cases h

theorem lexeme_of_symbolStep (h : symbolStep first rest = .token kind extra) :
    Lexeme kind (first :: rest.take extra) := by
  unfold symbolStep at h
  split at h <;> cases h
  all_goals exact .symbol _

/-- What is read as a token is what a pattern allows. -/
theorem lexeme_of_step (h : step first rest = .token kind extra) :
    Lexeme kind (first :: rest.take extra) := by
  unfold step at h
  split at h
  · cases h
  split at h
  · cases h
  split at h
  · next hnewline =>
      cases h
      rw [hnewline]
      exact .newline
  split at h
  · next hdigit => exact lexeme_of_numberStep hdigit h
  split at h
  · next hword => exact lexeme_of_wordStep hword h
  split at h
  · next hquote =>
      rcases hquote with rfl | rfl
      · exact @lexeme_of_textStep kind rest extra .double h
      · exact @lexeme_of_textStep kind rest extra .single h
  · exact lexeme_of_symbolStep h

theorem numberStep_of_numeral (numeral : Numeral) (following : List Char) :
    ∃ kind extra, numberStep numeral.first (numeral.tail ++ following) = .token kind extra ∧
      numeral.tail.length ≤ extra := by
  obtain ⟨first, whole, fraction, hfirst, hwhole, hfraction⟩ := numeral
  unfold numberStep
  cases fraction with
  | none =>
      have htake : (whole ++ following).takeWhile Char.isDigit =
          whole ++ following.takeWhile Char.isDigit := List.takeWhile_append_of_pos hwhole
      simp only [Numeral.tail, htake, List.length_append]
      split
      · exact ⟨_, _, rfl, by omega⟩
      · exact ⟨_, _, rfl, by omega⟩
  | some digits =>
      have htake : ((whole ++ '.' :: digits) ++ following).takeWhile Char.isDigit = whole := by
        rw [List.append_assoc, List.takeWhile_append_of_pos hwhole]
        simp
      have hdrop : ((whole ++ '.' :: digits) ++ following).dropWhile Char.isDigit =
          '.' :: (digits ++ following) := by
        rw [List.append_assoc, List.dropWhile_append_of_pos hwhole]
        simp
      have hdigits : (digits ++ following).takeWhile Char.isDigit =
          digits ++ following.takeWhile Char.isDigit :=
        List.takeWhile_append_of_pos (hfraction digits rfl)
      simp only [Numeral.tail, htake, hdrop, hdigits, List.length_append, List.length_cons]
      exact ⟨_, _, rfl, by omega⟩

theorem step_of_word {tail : List Char} (hfirst : isWordStart first = true)
    (htail : ∀ c ∈ tail, isWordPart c = true) (following : List Char) :
    ∃ kind extra, step first (tail ++ following) = .token kind extra ∧ tail.length ≤ extra := by
  have hspace : PassesNoSpace isWordStart := rfl
  have htake : (tail ++ following).takeWhile isWordPart =
      tail ++ following.takeWhile isWordPart := List.takeWhile_append_of_pos htail
  rw [hspace.step_eq hfirst, isDigit_of_isWordStart hfirst, if_neg Bool.false_ne_true,
    if_pos hfirst]
  unfold wordStep
  simp only [htake, List.length_append]
  split
  · exact ⟨_, _, rfl, Nat.le_add_right _ _⟩
  · exact ⟨_, _, rfl, Nat.le_add_right _ _⟩

theorem symbolStep_of_shorter (h : first ∈ ['=', '<', '>', '!']) (rest : List Char) :
    ∃ kind extra, symbolStep first rest = .token kind extra := by
  simp only [List.mem_cons, List.not_mem_nil, or_false] at h
  unfold symbolStep
  rcases h with rfl | rfl | rfl | rfl <;> split <;> simp_all

theorem step_of_symbol (mark : Symbol) (following : List Char) :
    ∃ first tail kind extra, mark.spelling.toList = first :: tail ∧
      step first (tail ++ following) = .token kind extra ∧ tail.length ≤ extra := by
  -- These four begin a longer symbol, and what follows decides which of the two is read.
  have hshorter : ∀ {first}, first ∈ ['=', '<', '>', '!'] →
      step first following = symbolStep first following →
      ∃ kind extra, step first following = .token kind extra ∧ 0 ≤ extra := by
    intro first hfirst hstep
    obtain ⟨kind, extra, hsymbol⟩ := symbolStep_of_shorter hfirst following
    exact ⟨kind, extra, hstep.trans hsymbol, Nat.zero_le extra⟩
  cases mark with
  | assign =>
      obtain ⟨kind, extra, hstep⟩ := hshorter (by decide : '=' ∈ ['=', '<', '>', '!']) rfl
      exact ⟨'=', [], kind, extra, rfl, hstep⟩
  | less =>
      obtain ⟨kind, extra, hstep⟩ := hshorter (by decide : '<' ∈ ['=', '<', '>', '!']) rfl
      exact ⟨'<', [], kind, extra, rfl, hstep⟩
  | greater =>
      obtain ⟨kind, extra, hstep⟩ := hshorter (by decide : '>' ∈ ['=', '<', '>', '!']) rfl
      exact ⟨'>', [], kind, extra, rfl, hstep⟩
  | bang =>
      obtain ⟨kind, extra, hstep⟩ := hshorter (by decide : '!' ∈ ['=', '<', '>', '!']) rfl
      exact ⟨'!', [], kind, extra, rfl, hstep⟩
  | _ => exact ⟨_, _, _, _, rfl, rfl, Nat.le_refl _⟩

/-- Where a text begins with what a pattern allows, a token is read that is at least as long. -/
theorem step_of_lexeme (h : Lexeme kind text) (following : List Char) :
    ∃ first tail other extra, text = first :: tail ∧
      step first (tail ++ following) = .token other extra ∧ tail.length ≤ extra := by
  cases h with
  | number numeral =>
      have hspace : PassesNoSpace Char.isDigit := rfl
      obtain ⟨other, extra, hstep, hle⟩ := numberStep_of_numeral numeral following
      refine ⟨_, _, other, extra, rfl, ?_, hle⟩
      rw [hspace.step_eq numeral.isDigit_first, if_pos numeral.isDigit_first, hstep]
  | @text quote body value hquoted =>
      have hstep (rest : List Char) : step quote.mark rest = textStep quote.mark rest := by
        cases quote <;> rfl
      have hquote : '\\' ≠ quote.mark := by
        cases quote <;> decide
      refine ⟨_, _, .text (String.ofList value), body.length, rfl, ?_, Nat.le_refl _⟩
      rw [hstep, textStep, closeText?_of_quoted hquote hquoted]
  | word hfirst htail _ =>
      obtain ⟨other, extra, hstep⟩ := step_of_word hfirst htail following
      exact ⟨_, _, other, extra, rfl, hstep⟩
  | keyword reserved =>
      obtain ⟨first, tail, hword, hfirst, htail, -⟩ := keyword_spelling reserved
      obtain ⟨other, extra, hstep⟩ := step_of_word hfirst (List.all_eq_true.mp htail) following
      exact ⟨first, tail, other, extra, hword, hstep⟩
  | symbol mark => exact step_of_symbol mark following
  | newline => exact ⟨'\n', [], .newline, 0, rfl, rfl, Nat.le_refl _⟩

theorem longestMatch_of_step (h : step first rest = .token kind extra) :
    LongestMatch kind (first :: rest.take extra) (rest.drop extra) := by
  refine ⟨lexeme_of_step h, fun other lexeme hlexeme hbegins => ?_⟩
  -- The step depends on the text alone, so a longer match here would have been taken.
  obtain ⟨following, hfollowing⟩ := hbegins
  rw [List.cons_append, List.take_append_drop] at hfollowing
  obtain ⟨start, tail, found, size, rfl, hstep, hle⟩ := step_of_lexeme hlexeme following
  rw [List.cons_append] at hfollowing
  obtain ⟨rfl, rfl⟩ := List.cons.inj hfollowing
  rw [h] at hstep
  cases hstep
  have hlength : tail.length ≤ (tail ++ following).length := by
    rw [List.length_append]
    exact Nat.le_add_right _ _
  rw [List.length_cons, List.length_cons, List.length_take]
  exact Nat.succ_le_succ (Nat.le_min.mpr ⟨hle, hlength⟩)

/-- Where the lexer finds no token, no pattern matches. -/
theorem not_lexeme_of_step (h : ∀ kind extra, step first rest ≠ .token kind extra)
    (hlexeme : Lexeme kind text) : ¬text <+: first :: rest := by
  rintro ⟨following, hfollowing⟩
  obtain ⟨start, tail, found, size, rfl, hstep, -⟩ := step_of_lexeme hlexeme following
  rw [List.cons_append] at hfollowing
  obtain ⟨rfl, rfl⟩ := List.cons.inj hfollowing
  exact h found size hstep

theorem Lexeme.ne_nil (h : Lexeme kind text) : text ≠ [] := by
  obtain ⟨first, tail, other, extra, rfl, -⟩ := step_of_lexeme h []
  exact List.cons_ne_nil first tail

/-- The tokens that are words. -/
def IsWord : TokenKind → Prop
  | .word _ | .keyword _ => True
  | .number _ | .text _ | .symbol _ | .newline | .endOfInput => False

theorem Lexeme.word_parts (h : Lexeme kind text) (hword : IsWord kind) :
    ∃ first tail, text = first :: tail ∧ isWordStart first = true ∧
      ∀ c ∈ tail, isWordPart c = true := by
  cases h with
  | word hfirst htail _ => exact ⟨_, _, rfl, hfirst, htail⟩
  | keyword reserved =>
      obtain ⟨first, tail, hword, hfirst, htail, -⟩ := keyword_spelling reserved
      exact ⟨first, tail, hword, hfirst, List.all_eq_true.mp htail⟩
  | number _ | text _ _ | symbol _ | newline => exact hword.elim

/-- The words are the tokens that begin with a letter or an underscore. -/
theorem Lexeme.isWord_iff (h : Lexeme kind text) :
    IsWord kind ↔ ∀ c ∈ text.head?, isWordStart c = true := by
  have hno : ∀ {first tail}, isWordStart first = false →
      ¬∀ c ∈ (first :: tail : List Char).head?, isWordStart c = true := by
    intro first tail hfirst hall
    rw [hall first rfl] at hfirst
    cases hfirst
  constructor
  · intro hword c hc
    obtain ⟨first, tail, rfl, hfirst, -⟩ := h.word_parts hword
    cases hc
    exact hfirst
  · intro hall
    cases h with
    | word _ _ _ | keyword _ => trivial
    | number numeral =>
        have hdigit := isDigit_of_isWordStart (hall numeral.first rfl)
        rw [numeral.isDigit_first] at hdigit
        cases hdigit
    | text quote _ => cases quote <;> exact hno (by decide) hall
    | symbol mark => cases mark <;> exact hno (by decide) hall
    | newline => exact hno (by decide) hall

theorem Lexeme.ne_endOfInput (h : Lexeme kind text) : kind ≠ .endOfInput := by
  rintro rfl
  cases h

theorem exists_word_lexeme {tail : List Char} (hfirst : isWordStart first = true)
    (htail : ∀ c ∈ tail, isWordPart c = true) : ∃ kind, Lexeme kind (first :: tail) := by
  cases hreserved : Keyword.ofWord? (String.ofList (first :: tail)) with
  | none => exact ⟨_, .word hfirst htail hreserved⟩
  | some reserved =>
      have hlexeme := Lexeme.keyword reserved
      rw [Keyword.spelling_of_ofWord? hreserved, String.toList_ofList] at hlexeme
      exact ⟨_, hlexeme⟩

/-- No word is cut short. -/
theorem LongestMatch.word_ends (h : LongestMatch kind text following) (hword : IsWord kind) :
    ∀ c ∈ following.head?, isWordPart c = false := by
  intro c hc
  obtain ⟨rest, rfl⟩ := List.head?_eq_some_iff.mp hc
  obtain ⟨first, tail, rfl, hfirst, htail⟩ := h.lexeme.word_parts hword
  by_contra hpart
  have hlonger : ∀ d ∈ tail ++ [c], isWordPart d = true := by
    intro d hd
    rcases List.mem_append.mp hd with hmem | hmem
    · exact htail d hmem
    · rw [List.mem_singleton.mp hmem]
      exact Bool.not_eq_false _ ▸ hpart
  obtain ⟨other, hlexeme⟩ := exists_word_lexeme hfirst hlonger
  have hle := h.longest other _ hlexeme ⟨rest, by simp⟩
  rw [List.length_cons, List.length_cons, List.length_append, List.length_singleton] at hle
  omega

/-- A word is a reserved word if it is spelled like one. -/
theorem Lexeme.keyword_iff (h : Lexeme kind text) (hword : IsWord kind) (reserved : Keyword) :
    kind = .keyword reserved ↔ text = reserved.spelling.toList := by
  constructor
  · rintro rfl
    cases h
    rfl
  · intro htext
    cases h with
    | word _ _ hname =>
        have hother := Keyword.ofWord?_eq_none_iff.mp hname reserved
        rw [htext, String.ofList_toList] at hother
        exact absurd rfl hother
    | keyword other =>
        obtain ⟨-, -, -, -, -, hother⟩ := keyword_spelling other
        obtain ⟨-, -, -, -, -, hreserved⟩ := keyword_spelling reserved
        rw [String.toList_inj.mp htext, hreserved] at hother
        rw [Option.some.inj hother]
    | number _ | text _ _ | symbol _ | newline => exact hword.elim

/-- A newline is a token of its own, unless it stands in a text. -/
theorem Lexeme.newline_alone (h : Lexeme kind text) (hmem : '\n' ∈ text) :
    (kind = .newline ∧ text = ['\n']) ∨ ∃ value, kind = .text value := by
  cases h with
  | newline => exact .inl ⟨rfl, rfl⟩
  | text quote _ => exact .inr ⟨_, rfl⟩
  | number numeral =>
      rcases numeral.isDigit_or_point '\n' hmem with hdigit | hpoint
      · cases hdigit
      · cases hpoint
  | word hfirst htail _ =>
      rcases List.mem_cons.mp hmem with rfl | hmem
      · cases hfirst
      · cases htail _ hmem
  | keyword reserved =>
      obtain ⟨first, tail, hword, hfirst, htail, -⟩ := keyword_spelling reserved
      rw [hword] at hmem
      rcases List.mem_cons.mp hmem with rfl | hmem
      · cases hfirst
      · cases List.all_eq_true.mp htail _ hmem
  | symbol mark => exact absurd hmem (by cases mark <;> decide)

/-- No symbol is cut short. -/
theorem LongestMatch.symbol_longest (h : LongestMatch kind text following) (mark : Symbol)
    (hbegins : mark.spelling.toList <+: text ++ following) :
    mark.spelling.toList.length ≤ text.length :=
  h.longest _ _ (.symbol mark) hbegins

end Lexer

end Bhasha
