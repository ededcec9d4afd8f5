import Bhasha.Token.Lexer

/-!
# Spelling tokens

A token is spelled as the lexer reads it: a number as a decimal literal of which it is the value,
and a text in quotes, with a backslash in front of each backslash and each of its quotes.  Tokens
are parted by blanks, so that no token can be read on into the next one: without the blank a
property of a number would be spelled like a decimal literal with a name behind it.
-/

namespace Bhasha

/-- A decimal literal: digits, and possibly a point with further digits, which may be missing. -/
structure Numeral where
  first : Char
  whole : List Char := []
  fraction : Option (List Char) := none
  isDigit_first : first.isDigit = true
  isDigit_whole : ∀ c ∈ whole, c.isDigit = true
  isDigit_fraction : ∀ digits ∈ fraction, ∀ c ∈ digits, c.isDigit = true

namespace Numeral

/-- The literal that consists of a single digit. -/
def ofDigit (digit : Char) (h : digit.isDigit = true) : Numeral where
  first := digit
  isDigit_first := h
  isDigit_whole := fun _ hmem => absurd hmem List.not_mem_nil
  isDigit_fraction := fun _ hmem => absurd hmem (Option.not_mem_none _)

def tail (numeral : Numeral) : List Char :=
  match numeral.fraction with
  | none => numeral.whole
  | some digits => numeral.whole ++ '.' :: digits

def value (numeral : Numeral) : Float :=
  (Decimal.ofParts (numeral.first :: numeral.whole) (numeral.fraction.getD []) 0).toFloat

/-- The characters of a decimal literal. -/
def spelling (numeral : Numeral) : List Char :=
  numeral.first :: numeral.tail

theorem isDigit_or_point (numeral : Numeral) :
    ∀ c ∈ numeral.spelling, c.isDigit = true ∨ c = '.' := by
  intro c hc
  obtain ⟨first, whole, fraction, hfirst, hwhole, hfraction⟩ := numeral
  rcases List.mem_cons.mp hc with rfl | hmem
  · exact .inl hfirst
  cases fraction with
  | none => exact .inl (hwhole c hmem)
  | some digits =>
      rcases List.mem_append.mp hmem with hmem | hmem
      · exact .inl (hwhole c hmem)
      · rcases List.mem_cons.mp hmem with rfl | hmem
        · exact .inr rfl
        · exact .inl (hfraction digits rfl c hmem)

end Numeral

/-- The marks that texts are put between. -/
inductive Quote where
  | single
  | double

namespace Quote

def mark : Quote → Char
  | single => '\''
  | double => '"'

def escape (quote : Quote) : List Char → List Char
  | [] => []
  | c :: rest =>
      if c = quote.mark ∨ c = '\\' then '\\' :: c :: quote.escape rest else c :: quote.escape rest

end Quote

/-- What is left open by the way in which tokens are spelled: the literal of a number, and the
quotes of a text. -/
structure Style where
  numeral : Float → Numeral
  quote : String → Quote

namespace Lexer

/-- A name is a word that is not reserved. -/
def isName (name : String) : Bool :=
  match name.toList with
  | [] => false
  | first :: rest =>
      isWordStart first && rest.all isWordPart && (Keyword.ofWord? name).isNone

/-- A token that can be spelled. -/
def Spellable (style : Style) : TokenKind → Prop
  | .number value => (style.numeral value).value = value
  | .word name => isName name = true
  | .endOfInput => False
  | .text _ | .keyword _ | .symbol _ | .newline => True

def spelling (style : Style) : TokenKind → List Char
  | .number value => (style.numeral value).first :: (style.numeral value).tail
  | .text value =>
      (style.quote value).mark ::
        ((style.quote value).escape value.toList ++ [(style.quote value).mark])
  | .word name => name.toList
  | .keyword reserved => reserved.spelling.toList
  | .symbol mark => mark.spelling.toList
  | .newline => ['\n']
  | .endOfInput => []

/-- What stands between a token and the next one. -/
def gap (kind : TokenKind) : List TokenKind → List Char
  | [] => []
  | next :: _ => if kind = .newline ∨ next = .newline then [] else [' ']

/-- The source text that some tokens are spelled as. -/
def render (style : Style) : List TokenKind → List Char
  | [] => []
  | kind :: rest => spelling style kind ++ (gap kind rest ++ render style rest)

/-- The characters that stand between tokens: blanks, the start of a comment, and a newline. -/
def spaces : List Char :=
  [' ', '\t', '\r', '\x0c', '#', '\n']

/-- Where a source text ends, or goes on with what stands between tokens, no token is read on. -/
inductive Breaks : List Char → Prop where
  | finish : Breaks []
  | space {c : Char} (hspace : c ∈ spaces) (rest : List Char) : Breaks (c :: rest)

variable {style : Style} {following : List Char}

/-- Where a source text goes on like this, no number and no word is read on. -/
def Parted (following : List Char) : Prop :=
  ∀ c ∈ following.head?, isWordPart c = false ∧ c ≠ '.'

theorem Breaks.parted (h : Breaks following) : Parted following := by
  intro c hc
  cases h with
  | finish => cases hc
  | space hspace rest =>
      cases hc
      have hall : spaces.all (fun c => !isWordPart c && c != '.') = true := by decide
      simpa using List.all_eq_true.mp hall c hspace

theorem Parted.stops {part : Char → Bool} (h : Parted following)
    (hpart : ∀ c, part c = true → isWordPart c = true) : ∀ c ∈ following.head?, part c = false := by
  intro c hc
  cases hpasses : part c with
  | false => rfl
  | true =>
      have hword := (h c hc).1
      rw [hpart c hpasses] at hword
      cases hword

theorem takeWhile_append_of_stops {part : Char → Bool} {text : List Char}
    (htext : ∀ c ∈ text, part c = true) (hstops : ∀ c ∈ following.head?, part c = false) :
    (text ++ following).takeWhile part = text := by
  rw [List.takeWhile_append_of_pos htext]
  cases following with
  | nil => simp
  | cons c rest => simp [hstops c rfl]

theorem dropWhile_append_of_stops {part : Char → Bool} {text : List Char}
    (htext : ∀ c ∈ text, part c = true) (hstops : ∀ c ∈ following.head?, part c = false) :
    (text ++ following).dropWhile part = following := by
  rw [List.dropWhile_append_of_pos htext]
  cases following with
  | nil => simp
  | cons c rest => simp [hstops c rfl]

theorem Parted.takeWhile_append {part : Char → Bool} {text : List Char} (h : Parted following)
    (hpart : ∀ c, part c = true → isWordPart c = true) (htext : ∀ c ∈ text, part c = true) :
    (text ++ following).takeWhile part = text :=
  takeWhile_append_of_stops htext (h.stops hpart)

theorem Parted.dropWhile_append {part : Char → Bool} {text : List Char} (h : Parted following)
    (hpart : ∀ c, part c = true → isWordPart c = true) (htext : ∀ c ∈ text, part c = true) :
    (text ++ following).dropWhile part = following :=
  dropWhile_append_of_stops htext (h.stops hpart)

theorem isWordPart_of_isDigit (c : Char) (h : c.isDigit = true) : isWordPart c = true := by
  simp [isWordPart, Char.isAlphanum, h]

/-- A test that no blank passes, nor the start of a comment, nor a newline. -/
def PassesNoSpace (part : Char → Bool) : Prop :=
  spaces.any part = false

theorem PassesNoSpace.step_eq {part : Char → Bool} (hpart : PassesNoSpace part) {first : Char}
    (h : part first = true) (rest : List Char) :
    step first rest =
      if first.isDigit then numberStep first rest
      else if isWordStart first then wordStep first rest
      else if first = '"' ∨ first = '\'' then textStep first rest
      else symbolStep first rest := by
  have hspace : first ∉ spaces :=
    fun hmem => List.any_eq_false.mp hpart first hmem h
  simp only [spaces, List.mem_cons, List.not_mem_nil, or_false, not_or] at hspace
  obtain ⟨hblank, htab, hreturn, hfeed, hcomment, hnewline⟩ := hspace
  simp [step, isBlank, hblank, htab, hreturn, hfeed, hcomment, hnewline]

theorem isDigit_of_isWordStart {first : Char} (h : isWordStart first = true) :
    first.isDigit = false := by
  apply Bool.eq_false_iff.mpr
  intro hdigit
  have hnine : first.val ≤ '9'.val := of_decide_eq_true (Bool.and_eq_true_iff.mp hdigit).2
  have hlast : first.val.toNat ≤ 57 := UInt32.le_iff_toNat_le.mp hnine
  rcases Bool.or_eq_true_iff.mp h with halpha | hunderscore
  · have hfirst : 65 ≤ first.val.toNat := by
      rcases Bool.or_eq_true_iff.mp halpha with hupper | hlower
      · have hcapital : 'A'.val ≤ first.val := (of_decide_eq_true hupper).1
        exact UInt32.le_iff_toNat_le.mp hcapital
      · have hsmall : 'a'.val ≤ first.val :=
          of_decide_eq_true (Bool.and_eq_true_iff.mp hlower).1
        have hsmallNat : 97 ≤ first.val.toNat := UInt32.le_iff_toNat_le.mp hsmall
        omega
    omega
  · obtain rfl := eq_of_beq hunderscore
    cases hdigit

theorem step_numeral (numeral : Numeral) (h : Parted following) :
    step numeral.first (numeral.tail ++ following) =
      .token (.number numeral.value) numeral.tail.length := by
  obtain ⟨first, whole, fraction, hfirst, hwhole, hfraction⟩ := numeral
  have hspace : PassesNoSpace Char.isDigit := rfl
  rw [hspace.step_eq hfirst, if_pos hfirst]
  unfold numberStep
  cases fraction with
  | none =>
      have htake : (whole ++ following).takeWhile Char.isDigit = whole :=
        h.takeWhile_append isWordPart_of_isDigit hwhole
      have hdrop : (whole ++ following).dropWhile Char.isDigit = following :=
        h.dropWhile_append isWordPart_of_isDigit hwhole
      simp only [Numeral.tail, Numeral.value, htake, hdrop]
      split
      · next afterPoint hpoint => exact absurd rfl (h '.' (by simp)).2
      · rfl
  | some digits =>
      -- The point ends the digits in front of it, and what follows ends those behind it.
      have htake : ((whole ++ '.' :: digits) ++ following).takeWhile Char.isDigit = whole := by
        rw [List.append_assoc, List.takeWhile_append_of_pos hwhole]
        simp
      have hdrop : ((whole ++ '.' :: digits) ++ following).dropWhile Char.isDigit =
          '.' :: (digits ++ following) := by
        rw [List.append_assoc, List.dropWhile_append_of_pos hwhole]
        simp
      have hdigits : (digits ++ following).takeWhile Char.isDigit = digits :=
        h.takeWhile_append isWordPart_of_isDigit (hfraction digits rfl)
      have hlength : (whole ++ '.' :: digits).length = whole.length + 1 + digits.length := by
        simp
        omega
      simp only [Numeral.tail, Numeral.value, htake, hdrop, hdigits, hlength, Option.getD_some]

theorem step_word {word : String} {first : Char} {tail : List Char}
    (hword : word.toList = first :: tail) (hfirst : isWordStart first = true)
    (htail : tail.all isWordPart = true) (h : Parted following) :
    step first (tail ++ following) =
      match Keyword.ofWord? word with
      | some reserved => .token (.keyword reserved) tail.length
      | none => .token (.word word) tail.length := by
  have hspace : PassesNoSpace isWordStart := rfl
  have htake : (tail ++ following).takeWhile isWordPart = tail :=
    h.takeWhile_append (fun _ hpart => hpart) (List.all_eq_true.mp htail)
  have hofList : String.ofList (first :: tail) = word := by
    rw [← hword, String.ofList_toList]
  rw [hspace.step_eq hfirst, isDigit_of_isWordStart hfirst, if_neg Bool.false_ne_true,
    if_pos hfirst]
  unfold wordStep
  cases hreserved : Keyword.ofWord? word with
  | some reserved => simp only [htake, hofList, hreserved]
  | none => simp only [htake, hofList, hreserved]

theorem closeText?_mark (quote : Char) (rest : List Char) :
    closeText? quote (quote :: rest) = some ([], 1) := by
  rw [closeText?.eq_def]
  simp

theorem closeText?_backslash {quote : Char} (h : '\\' ≠ quote) (c : Char) (rest : List Char) :
    closeText? quote ('\\' :: c :: rest) =
      (closeText? quote rest).map fun (value, size) => (unescape c :: value, size + 2) := by
  rw [closeText?.eq_def]
  simp [h]

theorem closeText?_plain {quote c : Char} (hquote : c ≠ quote) (hplain : c ≠ '\\')
    (rest : List Char) :
    closeText? quote (c :: rest) =
      (closeText? quote rest).map fun (value, size) => (c :: value, size + 1) := by
  rw [closeText?.eq_def]
  simp [hquote, hplain]

/-- The quote closes the text that has been escaped for it. -/
theorem closeText?_escape (quote : Quote) (text following : List Char) :
    closeText? quote.mark (quote.escape text ++ quote.mark :: following) =
      some (text, (quote.escape text).length + 1) := by
  induction text with
  | nil => exact closeText?_mark quote.mark following
  | cons c rest ih =>
      unfold Quote.escape
      by_cases hescaped : c = quote.mark ∨ c = '\\'
      · have hbackslash : '\\' ≠ quote.mark := by
          cases quote <;> decide
        have hunescape : unescape c = c := by
          rcases hescaped with rfl | rfl
          · cases quote <;> rfl
          · rfl
        rw [if_pos hescaped, List.cons_append, List.cons_append,
          closeText?_backslash hbackslash, ih, hunescape]
        rfl
      · obtain ⟨hquote, hplain⟩ := not_or.mp hescaped
        rw [if_neg hescaped, List.cons_append, closeText?_plain hquote hplain, ih]
        rfl

theorem step_text (quote : Quote) (value : String) (following : List Char) :
    step quote.mark ((quote.escape value.toList ++ [quote.mark]) ++ following) =
      .token (.text value) (quote.escape value.toList ++ [quote.mark]).length := by
  have hstep (rest : List Char) : step quote.mark rest = textStep quote.mark rest := by
    cases quote <;> rfl
  rw [hstep, List.append_assoc, List.singleton_append]
  unfold textStep
  rw [closeText?_escape]
  simp

theorem step_symbol (mark : Symbol) (h : Breaks following) :
    ∃ first tail, mark.spelling.toList = first :: tail ∧
      step first (tail ++ following) = .token (.symbol mark) tail.length := by
  cases h with
  | finish => cases mark <;> exact ⟨_, _, rfl, rfl⟩
  | @space c hspace rest =>
      simp only [spaces, List.mem_cons, List.not_mem_nil, or_false] at hspace
      rcases hspace with rfl | rfl | rfl | rfl | rfl | rfl <;> cases mark <;>
        exact ⟨_, _, rfl, rfl⟩

/-- A reserved word is spelled as a word. -/
theorem keyword_spelling (reserved : Keyword) :
    ∃ first tail, reserved.spelling.toList = first :: tail ∧ isWordStart first = true ∧
      tail.all isWordPart = true ∧ Keyword.ofWord? reserved.spelling = some reserved := by
  cases reserved <;> exact ⟨_, _, rfl, by decide, by decide, by decide⟩

theorem step_keyword (reserved : Keyword) (h : Breaks following) :
    ∃ first tail, reserved.spelling.toList = first :: tail ∧
      step first (tail ++ following) = .token (.keyword reserved) tail.length := by
  obtain ⟨first, tail, hword, hfirst, htail, hreserved⟩ := keyword_spelling reserved
  have hstep := step_word hword hfirst htail h.parted
  rw [hreserved] at hstep
  exact ⟨first, tail, hword, hstep⟩

/-- The spellings of a token. -/
inductive Spells : TokenKind → List Char → Prop where
  | number (numeral : Numeral) : Spells (.number numeral.value) (numeral.first :: numeral.tail)
  | text (quote : Quote) (value : String) :
      Spells (.text value) (quote.mark :: (quote.escape value.toList ++ [quote.mark]))
  | word {name : String} : isName name = true → Spells (.word name) name.toList
  | keyword (reserved : Keyword) : Spells (.keyword reserved) reserved.spelling.toList
  | symbol (mark : Symbol) : Spells (.symbol mark) mark.spelling.toList
  | newline : Spells .newline ['\n']

/-- Where it is not read on, a token is read as it is spelled. -/
theorem Spells.step {kind : TokenKind} {text : List Char} (hspells : Spells kind text)
    (h : kind = .newline ∨ Breaks following) :
    ∃ first tail, text = first :: tail ∧
      Lexer.step first (tail ++ following) = .token kind tail.length := by
  rcases h with rfl | h
  · cases hspells
    exact ⟨'\n', [], rfl, rfl⟩
  cases hspells with
  | number numeral => exact ⟨_, _, rfl, step_numeral numeral h.parted⟩
  | text quote value => exact ⟨_, _, rfl, step_text quote value following⟩
  | @word name hname =>
      unfold isName at hname
      cases hword : name.toList with
      | nil => simp [hword] at hname
      | cons first tail =>
          simp only [hword, Bool.and_eq_true, Option.isNone_iff_eq_none] at hname
          have hstep := step_word hword hname.1.1 hname.1.2 h.parted
          rw [hname.2] at hstep
          exact ⟨first, tail, rfl, hstep⟩
  | keyword reserved => exact step_keyword reserved h
  | symbol mark => exact step_symbol mark h
  | newline => exact ⟨'\n', [], rfl, rfl⟩

theorem spells_spelling {kind : TokenKind} (hkind : Spellable style kind) :
    Spells kind (spelling style kind) := by
  cases kind with
  | number value =>
      have hvalue : (style.numeral value).value = value := hkind
      have hspells := Spells.number (style.numeral value)
      rwa [hvalue] at hspells
  | text value => exact .text (style.quote value) value
  | word name => exact .word hkind
  | keyword reserved => exact .keyword reserved
  | symbol mark => exact .symbol mark
  | newline => exact .newline
  | endOfInput => exact absurd hkind id

/-- The source texts that some tokens may be written as: spelled in turn, with blanks and comments
in front of them, and so that no token is read on.  A comment goes up to the next newline. -/
inductive Writes : List TokenKind → List Char → Prop where
  | finish : Writes [] []
  | token {kind : TokenKind} {kinds : List TokenKind} {text following : List Char} :
      Spells kind text → kind = .newline ∨ Breaks following → Writes kinds following →
      Writes (kind :: kinds) (text ++ following)
  | blank {c : Char} {kinds : List TokenKind} {following : List Char} :
      isBlank c = true → Writes kinds following → Writes kinds (c :: following)
  | comment {text : List Char} {kinds : List TokenKind} {following : List Char} :
      '\n' ∉ text → Writes kinds ('\n' :: following) →
      Writes kinds ('#' :: (text ++ '\n' :: following))

theorem step_comment {text : List Char} (htext : '\n' ∉ text) (following : List Char) :
    step '#' (text ++ '\n' :: following) = .skip text.length := by
  have hall : ∀ c ∈ text, decide (c ≠ '\n') = true := by
    intro c hc
    exact decide_eq_true fun hnewline => htext (hnewline ▸ hc)
  have hskip : step '#' (text ++ '\n' :: following) =
      .skip ((text ++ '\n' :: following).takeWhile (· ≠ '\n')).length := rfl
  rw [hskip, List.takeWhile_append_of_pos hall]
  simp

/-- Tokens are read as they are written, and with them the text is at its end. -/
theorem Writes.lexFrom_eq {kinds : List TokenKind} {text : List Char} (h : Writes kinds text)
    (position : Position) :
    ∃ tokens, lexFrom position text = ⟨tokens, .ok (position.after text)⟩ ∧
      tokens.map Token.kind = kinds := by
  induction h generalizing position with
  | finish => exact ⟨[], by rw [lexFrom, Position.after_nil], rfl⟩
  | @token kind kinds text following hspells hbreaks _ ih =>
      obtain ⟨first, tail, rfl, hstep⟩ := hspells.step hbreaks
      obtain ⟨tokens, hlex, hkinds⟩ := ih (position.after (first :: tail))
      refine ⟨⟨kind, position⟩ :: tokens, ?_, by rw [List.map_cons, hkinds]⟩
      rw [Position.after_append, List.cons_append, lexFrom, hstep]
      simp only [List.take_left, List.drop_left, hlex]
  | @blank c kinds following hblank _ ih =>
      obtain ⟨tokens, hlex, hkinds⟩ := ih (position.after [c])
      have hstep : step c following = .skip 0 := by
        unfold step
        rw [if_pos hblank]
      refine ⟨tokens, ?_, hkinds⟩
      rw [lexFrom, hstep]
      exact hlex
  | @comment text kinds following htext _ ih =>
      obtain ⟨tokens, hlex, hkinds⟩ := ih (position.after ('#' :: text))
      refine ⟨tokens, ?_, hkinds⟩
      rw [← List.cons_append, Position.after_append, List.cons_append, lexFrom,
        step_comment htext]
      simp only [List.take_left, List.drop_left, hlex]

/-- Behind a token stands a place where it is not read on. -/
theorem breaks_gap (style : Style) (kind : TokenKind) (rest : List TokenKind) :
    kind = .newline ∨ Breaks (gap kind rest ++ render style rest) := by
  cases rest with
  | nil => exact .inr .finish
  | cons next rest =>
      by_cases hkind : kind = .newline
      · exact .inl hkind
      by_cases hnext : next = .newline
      · subst hnext
        refine .inr ?_
        simp only [gap, or_true, if_true, List.nil_append, render, spelling]
        exact .space (by decide) _
      · refine .inr ?_
        simp only [gap, hkind, hnext, or_false, if_false]
        exact .space (by decide) _

theorem writes_render {kinds : List TokenKind} (h : ∀ kind ∈ kinds, Spellable style kind) :
    Writes kinds (render style kinds) := by
  induction kinds with
  | nil => exact .finish
  | cons kind rest ih =>
      rw [List.forall_mem_cons] at h
      have hrest := ih h.2
      refine .token (spells_spelling h.1) (breaks_gap style kind rest) ?_
      -- A gap is a blank, if it is anything.
      cases rest with
      | nil => exact hrest
      | cons next rest =>
          by_cases hnewline : kind = .newline ∨ next = .newline
          · simp only [gap, hnewline, if_true, List.nil_append]
            exact hrest
          · simp only [gap, hnewline, if_false, List.cons_append, List.nil_append]
            exact .blank rfl hrest

/-- Tokens that can be spelled are read as they are spelled. -/
theorem lexFrom_render {kinds : List TokenKind} (h : ∀ kind ∈ kinds, Spellable style kind)
    (position : Position) :
    ∃ tokens final, lexFrom position (render style kinds) = ⟨tokens, .ok final⟩ ∧
      tokens.map Token.kind = kinds := by
  obtain ⟨tokens, hlex, hkinds⟩ := (writes_render h).lexFrom_eq position
  exact ⟨tokens, _, hlex, hkinds⟩

end Lexer

end Bhasha
