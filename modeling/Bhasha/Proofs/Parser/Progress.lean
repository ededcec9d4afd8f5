import Bhasha.Proofs.Grammar.EndOfInput
import Bhasha.Proofs.Parser.Recursion
import Bhasha.Proofs.Parser.StatementSoundness

/-!
# Parsing makes progress and ends

Whatever is read as an expression or a statement takes a token at least, and a block takes two; none
of them reaches over the end of the input.  So every round of a repetition and every nested call has
fewer tokens than the one before, or the same tokens and a tighter level of expressions.  The
recursions of the parser have exactly one solution each, and the bounds with which they run are
never reached.
-/

namespace Bhasha

namespace Parser

open Grammar

variable {α : Type}

/-- The calls of a level of expressions: those with fewer tokens, and those with the same tokens and
a tighter level. -/
def Tighter (inner outer : Level × Lexed) : Prop :=
  inner.2.tokens.length < outer.2.tokens.length ∨
    inner.2 = outer.2 ∧ outer.1.rank < inner.1.rank

/-- Parsing makes progress in all its parts, and each of its recursions goes down. -/
structure MakesProgress : Prop where
  level : ∀ level : Level, Takes 1 (ofLevel level expression)
  entry : Takes 1 (entry expression)
  statement : Takes 1 statement
  block : Takes 2 block
  levels : Descends Tighter levelRound fun level => ofLevel level expression
  signs : Descends Fewer (signRound (suffixed expression)) fun _ => unary expression
  joins : ∀ level next : Level, level.tighter? = some next →
    Descends Fewer (joinRound (joinerOf level) (ofLevel next expression))
      (joinLoop (joinerOf level) (ofLevel next expression))
  suffixes : Descends Fewer (suffixRound expression) (suffixLoop expression)
  elements : ∀ closing, Descends Fewer (itemsRound closing expression) fun _ =>
    commaList closing expression
  entries : ∀ closing, Descends Fewer (itemsRound closing (Parser.entry expression)) fun _ =>
    commaList closing (Parser.entry expression)
  parameters : ∀ closing, Descends Fewer (itemsRound closing word) fun _ => commaList closing word
  statements : ∀ isEnd, Descends Fewer (statementsRound isEnd Parser.statement) fun _ =>
    Parser.statements isEnd Parser.statement
  nested : Descends Fewer (fun next (_ : Unit) => statementOf (next ())) fun _ => Parser.statement
  /-- With any bounds above the number of tokens the whole source text is parsed alike. -/
  bounds : ∀ (source : String) (depth rounds : Nat),
    (Lexer.lex source).tokens.length < depth → (Lexer.lex source).tokens.length < rounds →
      readFront (statementsUpTo endsProgram (statementWithin depth) rounds) source =
        Program.parse source

theorem tighter_founded : WellFounded Tighter := by
  -- The levels are counted down from the tightest, of rank seven.
  let size (state : Level × Lexed) : Nat × Nat := (state.2.tokens.length, 7 - state.1.rank)
  have hsize : Subrelation Tighter (InvImage (Prod.Lex (· < ·) (· < ·)) size) := by
    rintro ⟨inner, shorter⟩ ⟨outer, input⟩ (hfewer | ⟨hsame, hrank⟩)
    · exact .left _ _ hfewer
    · have hinner : inner.rank ≤ 7 := by cases inner <;> decide
      have hless : 7 - inner.rank < 7 - outer.rank := by
        change outer.rank < inner.rank at hrank
        omega
      change shorter = input at hsame
      rw [hsame]
      exact .right _ hless
  exact hsize.wf (InvImage.wf size (Prod.lex Nat.lt_wfRel Nat.lt_wfRel).wf)

/-- What the phrases take off is taken by the parsers that read them. -/
theorem Sound.takes {parser : Parser α} {phrase : List Token → List Token → α → Prop}
    {least : Nat} (h : Sound parser phrase)
    (hphrase : ∀ input rest tree, phrase input rest tree →
      rest <:+ input ∧ rest.length + least ≤ input.length ∧ ends input = ends rest) :
    Takes least parser := by
  intro input output result hresult
  obtain ⟨hending, hread⟩ := h hresult
  obtain ⟨hsuffix, hlength, hends⟩ := hphrase _ _ _ hread
  obtain ⟨taken, htokens, hkinds⟩ := exists_taken hsuffix hends
  refine ⟨hending, taken, htokens, ?_, hkinds⟩
  rw [htokens, List.length_append] at hlength
  omega

theorem sound_ofLevel (level : Level) :
    Sound (ofLevel level expression) (Expression level) := by
  cases level with
  | disjunction => exact sound_disjunction sound_expression
  | conjunction => exact sound_conjunction sound_expression
  | comparison => exact sound_comparison sound_expression
  | additive => exact sound_additive sound_expression
  | multiplicative => exact sound_multiplicative sound_expression
  | unary => exact sound_unary sound_expression
  | suffixed => exact sound_suffixed sound_expression
  | primary => exact sound_primary sound_expression

theorem takes_level (level : Level) : Takes 1 (ofLevel level expression) := by
  refine (sound_ofLevel level).takes fun input rest tree h => ?_
  exact ⟨h.consumes.1, h.consumes.2, h.ends_eq⟩

theorem takes_expression : Takes 1 expression := by
  refine sound_expression.takes fun input rest tree h => ?_
  exact ⟨h.consumes.1, h.consumes.2, h.ends_eq⟩

theorem takes_entry : Takes 1 (entry expression) := by
  refine (sound_entry sound_expression).takes fun input rest tree h => ?_
  obtain ⟨middle, hkey, hvalue⟩ := h
  have hconsumes := hvalue.consumes.of_suffix hkey.suffix
  exact ⟨hconsumes.1, hconsumes.2, hkey.ends_eq.trans hvalue.ends_eq⟩

theorem takes_statement : Takes 1 statement := by
  refine sound_statement.takes fun input rest tree h => ?_
  obtain ⟨behind, hstatement, hnewlines⟩ := h
  have hconsumes := hstatement.consumes.then_suffix hnewlines.suffix
  exact ⟨hconsumes.1, hconsumes.2, hstatement.ends_eq.trans hnewlines.ends_eq⟩

/-- A block takes its two braces at least. -/
theorem takes_block : Takes 2 block := by
  refine (sound_blockOf sound_statement).takes fun input rest trees h => ?_
  obtain ⟨pieces, hbraced, hpieces, -⟩ := h
  have hconsumes := fun piece hpiece => (hpieces piece hpiece).consumes
  have hends := hbraced.ends_eq fun piece hpiece => (hpieces piece hpiece).ends_eq
  refine ⟨(hbraced.consumes hconsumes).1, ?_, hends⟩
  obtain ⟨opening, closing, inner, hnewlines, hlines⟩ := hbraced
  have hopening := hnewlines.suffix.length_le
  have hclosing := (hlines.suffix hconsumes).length_le
  simp only [List.length_cons] at hopening hclosing
  omega

section

variable {item : Parser α} (hitem : Takes 1 item) (hcomposed : Composed item)

include hitem hcomposed

theorem descends_itemsRound (closing : Symbol) :
    Descends Fewer (itemsRound closing item) fun _ => commaList closing item := by
  have hlayer : Guarded (itemsRound closing item) := by
    intro most next other _ hnext _
    refine Composed.skipNewlines.same fun _ => same_isAt (.refl _) ?_
    refine hitem.same fun first => Composed.skipNewlines.same fun _ => ?_
    refine same_isAt (Composed.advance.same fun _ => ?_) (.refl _)
    exact (hnext ()).before _
  exact descends_of_guarded (fun rounds _ => itemsUpTo closing item rounds) hlayer (fun _ => rfl)
    (fun rounds _ => composed_itemsUpTo hcomposed closing rounds) fun _ _ => rfl

end

theorem guarded_statementsRound (isEnd : TokenClass → Bool) :
    Guarded (statementsRound isEnd statement) := by
  intro most next other _ hnext _
  refine Composed.skipNewlines.same fun _ => Composed.current.same fun token => ?_
  split
  · exact .refl _
  · exact takes_statement.same fun first => (hnext ()).before _

theorem descends_statementsRound (isEnd : TokenClass → Bool) :
    Descends Fewer (statementsRound isEnd statement) fun _ => statements isEnd statement :=
  descends_of_guarded (fun rounds _ => statementsUpTo isEnd statement rounds)
    (guarded_statementsRound isEnd) (fun _ => rfl)
    (fun rounds _ => composed_statementsUpTo composed_statement isEnd rounds) fun _ _ => rfl

theorem byKind_joinerOf (level : Level) : (joinerOf level).ByKind := by
  cases level with
  | disjunction => exact byKind_orJoiner
  | conjunction => exact byKind_andJoiner
  | comparison | additive | multiplicative => exact byKind_binaryJoiner _
  | unary | suffixed | primary => exact ⟨fun _ _ _ => rfl, fun _ => rfl⟩

theorem descends_joinRound (level next : Level) :
    Descends Fewer (joinRound (joinerOf level) (ofLevel next expression))
      (joinLoop (joinerOf level) (ofLevel next expression)) := by
  have hlayer : Guarded (joinRound (joinerOf level) (ofLevel next expression)) := by
    intro most rest other _ hrest left
    refine Composed.current.same fun token => ?_
    cases joinerOf level token with
    | none => exact .refl _
    | some join => exact Composed.advance.same fun _ => (takes_level next).same fun right => hrest _
  exact descends_of_guarded_at_end (joinFrom (joinerOf level) (ofLevel next expression)) hlayer
    (fun _ => rfl) (composed_joinFrom (composed_ofLevel composed_expression next) (joinerOf level))
    (fun rounds left input => joinFrom_at_end (byKind_joinerOf level) _ rounds left) fun _ _ => rfl

theorem descends_suffixRound :
    Descends Fewer (suffixRound expression) (suffixLoop expression) := by
  have hlayer : Guarded (suffixRound expression) := by
    intro most rest other _ hrest target
    refine Composed.current.same fun token => ?_
    split
    · refine Composed.advance.same fun _ => takes_expression.same fun place => ?_
      exact (composed_symbol _).same fun _ => hrest _
    · exact Composed.advance.same fun _ => takes_word.same fun name => hrest _
    · exact .refl _
  exact descends_of_guarded_at_end (suffixes expression) hlayer (fun _ => rfl)
    (composed_suffixes composed_expression) (fun rounds target input => suffixes_at_end rounds target)
    fun _ _ => rfl

theorem descends_signRound :
    Descends Fewer (signRound (suffixed expression)) fun _ => unary expression := by
  have hlayer : Guarded (signRound (suffixed expression)) := by
    intro most rest other _ hrest _
    refine same_current fun token => ?_
    cases hop : unaryOp? token with
    | none => exact .refl _
    | some op =>
        have hkind : token.kind ≠ .endOfInput := by
          intro hend
          simp [unaryOp?, hend] at hop
        exact same_advance hkind fun _ => (hrest ()).before _
  exact descends_of_guarded_at_end (fun rounds _ => signed expression rounds) hlayer
    (fun _ => rfl) (fun rounds _ => composed_signed composed_expression rounds)
    (fun rounds _ input => signed_at_end rounds) fun _ _ => rfl

/-- Expressions inside expressions. -/
theorem descends_disjunction :
    Descends Fewer (fun next (_ : Unit) => disjunction (next ())) fun _ => expression := by
  have hlayer : Guarded fun (next : Unit → Parser Expr) (_ : Unit) => disjunction (next ()) :=
    fun _ _ _ hcomposed hnext _ => same_disjunction (hnext ()) (hcomposed ())
  exact descends_of_guarded (fun depth _ => expressionWithin depth) hlayer (fun _ => rfl)
    (fun depth _ => composed_expressionWithin depth) fun _ _ => rfl

theorem guarded_statementOf :
    Guarded fun (next : Unit → Parser Stmt) (_ : Unit) => statementOf (next ()) :=
  fun _ _ _ hcomposed hnext _ => same_statementOf (hnext ()) (hcomposed ())

/-- Statements inside statements. -/
theorem descends_statementOf :
    Descends Fewer (fun next (_ : Unit) => statementOf (next ())) fun _ => statement :=
  descends_of_guarded (fun depth _ => statementWithin depth) guarded_statementOf (fun _ => rfl)
    (fun depth _ => composed_statementWithin depth) fun _ _ => rfl

/-- A whole expression is a phrase of the loosest level. -/
theorem disjunction_expression : disjunction expression = expression :=
  congrFun ((descends_disjunction.only fun _ => expression).mpr rfl) ()

theorem descends_levelRound :
    Descends Tighter levelRound fun level => ofLevel level expression := by
  refine descends_of_determined tighter_founded fun call level input hcall => ?_
  have hfewer (inner : Level) : Same Anywhere input.tokens.length (call inner)
      (ofLevel inner expression) :=
    fun shorter hshorter _ => hcall inner shorter (.inl hshorter)
  have htighter (next : Level) (hrank : level.rank < next.rank) :
      call next input = ofLevel next expression input :=
    hcall next input (.inr ⟨rfl, hrank⟩)
  have hexpression : Same Anywhere input.tokens.length (call .disjunction) expression := by
    have hsame := hfewer .disjunction
    rwa [show ofLevel .disjunction expression = expression from disjunction_expression] at hsame
  have hjoined (next : Level) (joiner : Joiner) (hrank : level.rank < next.rank) :
      (call next >>= joinLoop joiner (call next)) input =
        (ofLevel next expression >>= joinLoop joiner (ofLevel next expression)) input := by
    refine bind_congr (htighter next hrank) fun left middle hleft => ?_
    have hmiddle := (takes_level next).shortens Anywhere trivial hleft
    have hloop : Same Anywhere _ _ _ :=
      same_joinLoop (hfewer next) (composed_ofLevel composed_expression next) joiner left
    exact hloop middle hmiddle trivial
  cases level with
  | disjunction => exact hjoined .conjunction orJoiner (by decide)
  | conjunction => exact hjoined .comparison andJoiner (by decide)
  | comparison => exact hjoined .additive _ (by decide)
  | additive => exact hjoined .multiplicative _ (by decide)
  | multiplicative => exact hjoined .unary _ (by decide)
  | unary =>
      have hsuffixed := htighter .suffixed (by decide)
      have hsigns := descends_signRound.determined (fun _ => call .unary) () input
        fun _ shorter hshorter => hfewer .unary shorter hshorter trivial
      refine Eq.trans ?_ hsigns
      refine bind_congr rfl fun token middle hcurrent => ?_
      obtain ⟨-, rfl⟩ := current_eq_ok.mp hcurrent
      cases unaryOp? token with
      | none => exact hsuffixed
      | some op => rfl
  | suffixed =>
      refine bind_congr (htighter .primary (by decide)) fun target middle htarget => ?_
      have hmiddle := (takes_level .primary).shortens Anywhere trivial htarget
      have hloop : Same Anywhere _ _ _ := same_suffixLoop hexpression composed_expression target
      exact hloop middle (Nat.lt_succ_of_lt hmiddle) trivial
  | primary =>
      have hprimary : Same Anywhere _ _ _ := same_primary hexpression composed_expression
      exact hprimary input (Nat.lt_succ_self _) trivial

theorem same_statementWithin {most depth : Nat} (hdepth : most ≤ depth) :
    Same Anywhere most (statementWithin depth) statement := by
  change Same Anywhere most _ ((fun _ : Unit => statement) ())
  exact same_solution (fun depth _ => statementWithin depth) guarded_statementOf (fun _ => rfl)
    (fun depth _ => composed_statementWithin depth) (fun _ _ => rfl) hdepth ()

/-- Programs are parsed alike with any bounds above the number of tokens. -/
theorem readFront_of_bounds (source : String) {depth rounds : Nat}
    (hdepth : (Lexer.lex source).tokens.length < depth)
    (hrounds : (Lexer.lex source).tokens.length < rounds) :
    readFront (statementsUpTo endsProgram (statementWithin depth) rounds) source =
      Program.parse source := by
  have hstatement : Same Anywhere _ _ _ :=
    same_statementsUpTo (same_statementWithin hdepth) composed_statement endsProgram rounds
  have hprogram : Same Anywhere ((Lexer.lex source).tokens.length + 1)
      (statementsUpTo endsProgram statement rounds) program := by
    change Same Anywhere _ _ ((fun _ : Unit => program) ())
    exact same_solution (fun rounds _ => statementsUpTo endsProgram statement rounds)
      (guarded_statementsRound endsProgram) (fun _ => rfl)
      (fun rounds _ => composed_statementsUpTo composed_statement endsProgram rounds)
      (fun _ _ => rfl) hrounds ()
  unfold Program.parse readFront
  cases hsettle : (Lexer.lex source).settle with
  | error error => rfl
  | ok input =>
      rw [settle_eq_ok hsettle]
      have hsame := (hstatement (Lexer.lex source) (Nat.lt_succ_self _) trivial).trans
        (hprogram (Lexer.lex source) (Nat.lt_succ_self _) trivial)
      change (statementsUpTo endsProgram (statementWithin depth) rounds (Lexer.lex source) >>= _) =
        (program (Lexer.lex source) >>= _)
      rw [hsame]

/-- **Parsing makes progress and ends.** -/
theorem makes_progress : MakesProgress where
  level := takes_level
  entry := takes_entry
  statement := takes_statement
  block := takes_block
  levels := descends_levelRound
  signs := descends_signRound
  joins level next _ := descends_joinRound level next
  suffixes := descends_suffixRound
  elements := descends_itemsRound takes_expression composed_expression
  entries := descends_itemsRound takes_entry (composed_entry composed_expression)
  parameters := descends_itemsRound takes_word composed_word
  statements := descends_statementsRound
  nested := descends_statementOf
  bounds source _ _ hdepth hrounds := readFront_of_bounds source hdepth hrounds

end Parser

end Bhasha
