import Bhasha.Parser.Statement
import Bhasha.Proofs.Parser.Level
import Bhasha.Proofs.Parser.Reading

/-!
# Whatever is grammatical is read

A derivation of the grammar groups operators and suffixes to the left, and the parser reads them
in rounds from the left.  So a phrase whose left part is derived corresponds to a parser that has
some rounds behind it: reading the phrase comes down to going on behind it with the tree that has
been built.  This is what the induction on derivations carries; when nothing behind the phrase
carries it on, the rounds are over and the phrase has been read.
-/

namespace Bhasha

namespace Parser

open Grammar

/-- How the parser of a level goes on after it has built a tree. -/
def goOn : Level → Parser Expr → Nat → Expr → Parser Expr
  | .disjunction, expression => joinFrom (joinerOf .disjunction) (conjunction expression)
  | .conjunction, expression => joinFrom (joinerOf .conjunction) (comparison expression)
  | .comparison, expression => joinFrom (joinerOf .comparison) (additive expression)
  | .additive, expression => joinFrom (joinerOf .additive) (multiplicative expression)
  | .multiplicative, expression => joinFrom (joinerOf .multiplicative) (unary expression)
  | .suffixed, expression => suffixes expression
  | .unary, _ | .primary, _ => fun _ tree => pure tree

theorem goOn_of_rank {level next : Level} (htighter : level.tighter? = some next)
    (hrank : level.rank < Level.unary.rank) (expression : Parser Expr) :
    goOn level expression = joinFrom (joinerOf level) (ofLevel next expression) := by
  cases level <;> cases htighter <;> first | rfl | exact absurd hrank (by decide)

theorem ofLevel_of_rank {level next : Level} (htighter : level.tighter? = some next)
    (hrank : level.rank < Level.unary.rank) (expression : Parser Expr) :
    ofLevel level expression = joined (joinerOf level) (ofLevel next expression) := by
  cases level <;> cases htighter <;> first | rfl | exact absurd hrank (by decide)

theorem joinsLevel_joinerOf (level : Level) : JoinsLevel (joinerOf level) level := by
  cases level with
  | disjunction => exact joinsLevel_orJoiner
  | conjunction => exact joinsLevel_andJoiner
  | comparison => exact joinsLevel_comparison
  | additive => exact joinsLevel_additive
  | multiplicative => exact joinsLevel_multiplicative
  | _ => exact fun _ => rfl

theorem joinFrom_ends {level : Level} {rest : List Token} (h : Ends level rest)
    (operand : Parser Expr) (rounds : Nat) (tree : Expr) :
    Reads (joinFrom (joinerOf level) operand rounds tree) rest rest tree := by
  cases rounds with
  | zero => exact reads_pure rest tree
  | succ rounds =>
      intro position
      have hnone : joinerOf level (Lexed.current ⟨rest, .ok position⟩) = none := by
        rw [joinsLevel_joinerOf, current_kind, h.join?_eq_none]
        rfl
      simp only [joinFrom, current, bind, StateT.bind, Except.bind, hnone]
      rfl

theorem suffixes_ends {rest : List Token} (h : Ends .suffixed rest) (expression : Parser Expr)
    (rounds : Nat) (tree : Expr) : Reads (suffixes expression rounds tree) rest rest tree := by
  cases rounds with
  | zero => exact reads_pure rest tree
  | succ rounds =>
      cases rest with
      | nil => exact fun _ => rfl
      | cons token rest =>
          refine (reads_current token rest).bind ?_
          obtain ⟨kind, position⟩ := token
          cases kind with
          | symbol mark =>
              cases mark with
              | leftBracket => exact absurd (h _ rfl) (by decide)
              | dot => exact absurd (h _ rfl) (by decide)
              | _ => exact reads_pure _ tree
          | _ => exact reads_pure _ tree

theorem goOn_ends {level : Level} {rest : List Token} (h : Ends level rest)
    (expression : Parser Expr) (rounds : Nat) (tree : Expr) :
    Reads (goOn level expression rounds tree) rest rest tree := by
  cases level with
  | suffixed => exact suffixes_ends h expression rounds tree
  | unary => exact reads_pure rest tree
  | primary => exact reads_pure rest tree
  | _ => exact joinFrom_ends h _ rounds tree

/-- Reading the input as a phrase of the level comes down to going on with the tree, with enough
rounds for the rest. -/
def ReadsUpTo (level : Level) (expression : Parser Expr) (input rest : List Token)
    (tree : Expr) : Prop :=
  ∃ rounds, rest.length ≤ rounds ∧ ∀ position,
    ofLevel level expression ⟨input, .ok position⟩ =
      goOn level expression rounds tree ⟨rest, .ok position⟩

theorem ReadsUpTo.reads {level : Level} {expression : Parser Expr} {input rest : List Token}
    {tree : Expr} (h : ReadsUpTo level expression input rest tree) (hends : Ends level rest) :
    Reads (ofLevel level expression) input rest tree := by
  obtain ⟨rounds, -, hread⟩ := h
  intro position
  rw [hread]
  exact goOn_ends hends expression rounds tree position

/-- Behind a sign or a primary phrase there are no rounds. -/
theorem readsUpTo_unary {expression : Parser Expr} {input rest : List Token} {tree : Expr}
    (h : Reads (unary expression) input rest tree) :
    ReadsUpTo .unary expression input rest tree :=
  ⟨rest.length, Nat.le_refl _, h⟩

theorem readsUpTo_primary {expression : Parser Expr} {input rest : List Token} {tree : Expr}
    (h : Reads (primary expression) input rest tree) :
    ReadsUpTo .primary expression input rest tree :=
  ⟨rest.length, Nat.le_refl _, h⟩

theorem readsUpTo_joined {level next : Level} {expression : Parser Expr} {input rest : List Token}
    {tree : Expr} (htighter : level.tighter? = some next) (hrank : level.rank < Level.unary.rank)
    (hread : Reads (ofLevel next expression) input rest tree) :
    ReadsUpTo level expression input rest tree := by
  refine ⟨rest.length, Nat.le_refl _, fun position => ?_⟩
  rw [ofLevel_of_rank htighter hrank, goOn_of_rank htighter hrank, joined, hread.bind_apply,
    (reads_remaining rest).bind_apply]

theorem readsUpTo_suffixed {expression : Parser Expr} {input rest : List Token} {tree : Expr}
    (hread : Reads (primary expression) input rest tree) :
    ReadsUpTo .suffixed expression input rest tree := by
  refine ⟨rest.length, Nat.le_refl _, fun position => ?_⟩
  change suffixed expression ⟨input, .ok position⟩ = _
  rw [suffixed, hread.bind_apply, (reads_remaining rest).bind_apply]
  rfl

/-- Where no operator stands in front, there is only an operand. -/
theorem reads_unary_of_suffixed {expression : Parser Expr} {input rest : List Token} {tree : Expr}
    (hsign : sign? (front input) = none) (hread : Reads (suffixed expression) input rest tree) :
    Reads (unary expression) input rest tree := by
  refine (reads_remaining input).bind ?_
  cases input with
  | nil => exact hread
  | cons token input =>
      have hnone : unaryOp? token = none := by
        rw [unaryOp?_eq]
        exact hsign
      refine (reads_current token input).bind ?_
      rw [hnone]
      exact hread

theorem reads_unary_sign {expression : Parser Expr} {kind : TokenKind} {position : Position}
    {input rest : List Token} {op : UnaryOp} {operand : Expr} (hsign : sign? kind = some op)
    (hread : Reads (unary expression) input rest operand) :
    Reads (unary expression) (⟨kind, position⟩ :: input) rest (.unary op operand position.line) := by
  have hsome : unaryOp? ⟨kind, position⟩ = some op := by
    rw [unaryOp?_eq]
    exact hsign
  have hsigned : Reads (signed expression input.length) input rest operand := by
    intro ending
    rw [← hread ending, unary, (reads_remaining input).bind_apply]
  refine (reads_remaining _).bind ((reads_current _ input).bind ?_)
  rw [hsome]
  exact (reads_advance _ input).bind (hsigned.bind (reads_pure rest _))

/-- An operator and its right operand take one of the rounds. -/
theorem readsUpTo_operator {level next : Level} {expression : Parser Expr} {kind : TokenKind}
    {position : Position} {input middle rest : List Token} {join : Expr → Expr → Nat → Expr}
    {left right : Expr} (hjoin : level.join? kind = some join)
    (htighter : level.tighter? = some next) (hshorter : rest.length ≤ middle.length)
    (hleft : ReadsUpTo level expression input (⟨kind, position⟩ :: middle) left)
    (hright : Reads (ofLevel next expression) middle rest right) :
    ReadsUpTo level expression input rest (join left right position.line) := by
  have hrank := Level.rank_lt_unary_of_join? hjoin
  have hsome : joinerOf level ⟨kind, position⟩ =
      some fun left right => join left right position.line := by
    rw [joinsLevel_joinerOf, hjoin]
    rfl
  obtain ⟨rounds, hrounds, hread⟩ := hleft
  obtain ⟨rounds, rfl⟩ := Nat.exists_eq_add_one_of_ne_zero (Nat.ne_zero_of_lt hrounds)
  refine ⟨rounds, Nat.le_trans hshorter (Nat.le_of_succ_le_succ hrounds), fun ending => ?_⟩
  rw [hread, goOn_of_rank htighter hrank, joinFrom, (reads_current _ middle).bind_apply, hsome]
  simp only
  rw [(reads_advance _ middle).bind_apply, hright.bind_apply]

theorem readsUpTo_index {expression : Parser Expr} {opening closing : Position}
    {input middle rest : List Token} {target place : Expr} (hshorter : rest.length ≤ middle.length)
    (htarget : ReadsUpTo .suffixed expression input (⟨.symbol .leftBracket, opening⟩ :: middle)
      target)
    (hplace : Reads expression middle (⟨.symbol .rightBracket, closing⟩ :: rest) place) :
    ReadsUpTo .suffixed expression input rest (.index target place opening.line) := by
  obtain ⟨rounds, hrounds, hread⟩ := htarget
  obtain ⟨rounds, rfl⟩ := Nat.exists_eq_add_one_of_ne_zero (Nat.ne_zero_of_lt hrounds)
  refine ⟨rounds, Nat.le_trans hshorter (Nat.le_of_succ_le_succ hrounds), fun ending => ?_⟩
  rw [hread]
  change suffixes expression (rounds + 1) target _ = _
  rw [suffixes, (reads_current _ middle).bind_apply]
  simp only
  rw [(reads_advance _ middle).bind_apply, hplace.bind_apply, reads_symbol.bind_apply]
  rfl

theorem readsUpTo_property {expression : Parser Expr} {dot position : Position} {name : String}
    {input rest : List Token} {target : Expr}
    (htarget : ReadsUpTo .suffixed expression input
      (⟨.symbol .dot, dot⟩ :: ⟨.word name, position⟩ :: rest) target) :
    ReadsUpTo .suffixed expression input rest (.property target name dot.line) := by
  obtain ⟨rounds, hrounds, hread⟩ := htarget
  obtain ⟨rounds, rfl⟩ := Nat.exists_eq_add_one_of_ne_zero (Nat.ne_zero_of_lt hrounds)
  have hrest : rest.length ≤ rounds := by
    simp only [List.length_cons] at hrounds
    omega
  refine ⟨rounds, hrest, fun ending => ?_⟩
  rw [hread]
  change suffixes expression (rounds + 1) target _ = _
  rw [suffixes, (reads_current _ _).bind_apply]
  simp only
  rw [(reads_advance _ _).bind_apply, reads_word.bind_apply]
  rfl

theorem reads_constant {expression : Parser Expr} {kind : TokenKind} {position : Position}
    {rest : List Token} {value : Literal} (hconstant : constant? kind = some value) :
    Reads (primary expression) (⟨kind, position⟩ :: rest) rest (.literal value position.line) := by
  refine (reads_current _ rest).bind ?_
  unfold constant? at hconstant
  split at hconstant <;> cases hconstant <;>
    exact (reads_advance _ rest).bind (reads_pure rest _)

theorem reads_var {expression : Parser Expr} {name : String} {position : Position}
    {rest : List Token} (hrest : front rest ≠ .symbol .leftParen) :
    Reads (primary expression) (⟨.word name, position⟩ :: rest) rest (.var name position.line) := by
  refine (reads_current _ rest).bind ((reads_advance _ rest).bind ?_)
  exact (reads_isAt_false (toClass_ne_symbol hrest)).bind (reads_pure rest _)

theorem reads_callOf {expression : Parser Expr} {name : String} {line : Nat} {opening : Position}
    {input rest : List Token} {pieces : List (Piece Expr)}
    (hseparated : Separated .rightParen input pieces rest)
    (hpieces : ∀ piece ∈ pieces, ReadsItem .rightParen expression piece) :
    Reads (callOf expression name line) (⟨.symbol .leftParen, opening⟩ :: input) rest
      (.call name (pieces.map Piece.tree) line) :=
  reads_symbol.bind ((reads_commaList (by decide) hseparated hpieces).bind (reads_pure rest _))

theorem reads_call {expression : Parser Expr} {name : String} {position opening : Position}
    {input rest : List Token} {pieces : List (Piece Expr)}
    (hseparated : Separated .rightParen input pieces rest)
    (hpieces : ∀ piece ∈ pieces, ReadsItem .rightParen expression piece) :
    Reads (primary expression)
      (⟨.word name, position⟩ :: ⟨.symbol .leftParen, opening⟩ :: input) rest
      (.call name (pieces.map Piece.tree) position.line) := by
  refine (reads_current _ _).bind ((reads_advance _ _).bind ?_)
  exact (reads_isAt_true (by rfl)).bind (reads_callOf hseparated hpieces)

theorem reads_list {expression : Parser Expr} {position : Position} {input rest : List Token}
    {pieces : List (Piece Expr)} (hseparated : Separated .rightBracket input pieces rest)
    (hpieces : ∀ piece ∈ pieces, ReadsItem .rightBracket expression piece) :
    Reads (primary expression) (⟨.symbol .leftBracket, position⟩ :: input) rest
      (.list (pieces.map Piece.tree) position.line) := by
  refine (reads_current _ input).bind ((reads_advance _ input).bind ?_)
  exact (reads_commaList (by decide) hseparated hpieces).bind (reads_pure rest _)

theorem reads_entryKey {input middle : List Token} {key : String} (hkey : Key input key middle) :
    ∃ colon behind, Reads entryKey input (⟨.symbol .colon, colon⟩ :: behind) key ∧
      Newlines behind middle := by
  cases hkey with
  | word hnewlines => exact ⟨_, _, (reads_current _ _).bind reads_word, hnewlines⟩
  | text hnewlines =>
      exact ⟨_, _, (reads_current _ _).bind ((reads_advance _ _).bind (reads_pure _ _)), hnewlines⟩

theorem reads_entry {expression : Parser Expr} {input middle rest : List Token} {key : String}
    {value : Expr} (hkey : Key input key middle) (hfront : front middle ≠ .newline)
    (hvalue : Reads expression middle rest value) :
    Reads (entry expression) input rest (key, value) := by
  obtain ⟨colon, behind, hread, hnewlines⟩ := reads_entryKey hkey
  refine hread.bind (reads_symbol.bind ?_)
  exact (reads_skipNewlines hnewlines hfront).bind (hvalue.bind (reads_pure rest _))

theorem reads_record {expression : Parser Expr} {position : Position} {input rest : List Token}
    {entries : List Entry} (hseparated : Separated .rightBrace input (entries.map Entry.piece) rest)
    (hentries : ∀ piece ∈ entries.map Entry.piece,
      ReadsItem .rightBrace (entry expression) piece) :
    Reads (primary expression) (⟨.symbol .leftBrace, position⟩ :: input) rest
      (.record (entries.map fun entry => (entry.key, entry.value)) position.line) := by
  have htrees : (entries.map Entry.piece).map Piece.tree =
      entries.map fun entry => (entry.key, entry.value) := by
    simp [Entry.piece]
  rw [← htrees]
  refine (reads_current _ input).bind ((reads_advance _ input).bind ?_)
  exact (reads_commaList (by decide) hseparated hentries).bind (reads_pure rest _)

theorem reads_parentheses {expression : Parser Expr} {opening closing : Position}
    {input rest : List Token} {inner : Expr}
    (hinner : Reads expression input (⟨.symbol .rightParen, closing⟩ :: rest) inner) :
    Reads (primary expression) (⟨.symbol .leftParen, opening⟩ :: input) rest inner := by
  refine (reads_current _ input).bind ((reads_advance _ input).bind ?_)
  exact hinner.bind (reads_symbol.bind (reads_pure rest _))

/-! Expressions -/

/-- A whole expression is read when its parser is allowed to nest more deeply than there are
tokens. -/
def ReadsWithin (input rest : List Token) (tree : Expr) : Prop :=
  ∀ depth, input.length ≤ depth → Ends .disjunction rest →
    Reads (disjunction (expressionWithin depth)) input rest tree

theorem ReadsWithin.reads {input rest : List Token} {tree : Expr}
    (h : ReadsWithin input rest tree) {depth : Nat} (hdepth : input.length < depth)
    (hends : Ends .disjunction rest) : Reads (expressionWithin depth) input rest tree := by
  obtain ⟨depth, rfl⟩ := Nat.exists_eq_add_one_of_ne_zero (Nat.ne_zero_of_lt hdepth)
  exact h depth (Nat.le_of_lt_succ hdepth) hends

theorem ends_of_endsItem {closing : Symbol} {rest : List Token}
    (hclosing : strength? (.symbol closing) = none) (h : EndsItem closing rest) (level : Level) :
    Ends level rest := by
  apply ends_of_strength?
  rcases h with h | h | h
  · rw [h]
    rfl
  · rw [h]
    rfl
  · rw [h]
    exact hclosing

/-- The items of a list inside a phrase are read. -/
theorem readsItem_of_within {closing : Symbol} {depth : Nat} {input rest : List Token}
    {pieces : List (Piece Expr)} (hclosing : strength? (.symbol closing) = none)
    (hstart : startsOperand (.symbol closing) = false) (hsign : sign? (.symbol closing) = none)
    (hseparated : Separated closing input pieces rest) (hdepth : input.length < depth)
    (hpieces : ∀ piece ∈ pieces, Expression .disjunction piece.start piece.stop piece.tree)
    (hread : ∀ piece ∈ pieces, ReadsWithin piece.start piece.stop piece.tree) :
    ∀ piece ∈ pieces, ReadsItem closing (expressionWithin depth) piece := by
  intro piece hpiece
  have hphrase := hpieces piece hpiece
  have hsuffix := hseparated.start_suffix (fun other hother => (hpieces other hother).consumes)
    piece hpiece
  refine ⟨hphrase.consumes, hphrase.front_ne rfl rfl, hphrase.front_ne hstart hsign, fun hends => ?_⟩
  have hlength := Nat.lt_of_le_of_lt hsuffix.length_le hdepth
  exact (hread piece hpiece).reads hlength (ends_of_endsItem hclosing hends _)

theorem readsItem_of_entries {depth : Nat} {input rest : List Token} {entries : List Entry}
    (hseparated : Separated .rightBrace input (entries.map Entry.piece) rest)
    (hdepth : input.length < depth)
    (hkeys : ∀ entry ∈ entries, Key entry.start entry.key entry.middle)
    (hvalues : ∀ entry ∈ entries, Expression .disjunction entry.middle entry.stop entry.value)
    (hread : ∀ entry ∈ entries, ReadsWithin entry.middle entry.stop entry.value) :
    ∀ piece ∈ entries.map Entry.piece,
      ReadsItem .rightBrace (entry (expressionWithin depth)) piece := by
  have hconsumes : ∀ piece ∈ entries.map Entry.piece, Consumes piece.start piece.stop := by
    intro piece hpiece
    obtain ⟨entry, hentry, rfl⟩ := List.mem_map.mp hpiece
    exact (hvalues entry hentry).consumes.of_suffix (hkeys entry hentry).suffix
  intro piece hpiece
  have hsuffix := hseparated.start_suffix hconsumes piece hpiece
  obtain ⟨entry, hentry, rfl⟩ := List.mem_map.mp hpiece
  have hkey := hkeys entry hentry
  have hvalue := hvalues entry hentry
  refine ⟨hconsumes _ hpiece, hkey.front_ne_newline, hkey.front_ne_rightBrace, fun hends => ?_⟩
  have hlength := Nat.le_trans hkey.suffix.length_le hsuffix.length_le
  exact reads_entry hkey (hvalue.front_ne rfl rfl)
    ((hread entry hentry).reads (Nat.lt_of_le_of_lt hlength hdepth)
      (ends_of_endsItem rfl hends _))

theorem readsUpTo_of_expression {level : Level} {input rest : List Token} {tree : Expr}
    (h : Expression level input rest tree) :
    ∀ depth, input.length ≤ depth → CarriesOn level rest →
      ReadsUpTo level (expressionWithin depth) input rest tree := by
  induction h with
  | @tighter level next input rest tree htighter hphrase ih =>
      intro depth hdepth hrest
      have hends := hrest.ends_next htighter
      have hread := (ih depth hdepth hends.carriesOn).reads hends
      cases level with
      | unary =>
          cases htighter
          exact readsUpTo_unary (reads_unary_of_suffixed hphrase.sign?_front hread)
      | suffixed =>
          cases htighter
          exact readsUpTo_suffixed hread
      | primary => cases htighter
      | _ => exact readsUpTo_joined htighter (by decide) hread
  | joined hjoin htighter hleft hright ihleft ihright =>
      intro depth hdepth hrest
      have hmiddle := hleft.consumes.of_cons
      have hends := hrest.ends_next htighter
      have hright' := ihright depth (Nat.le_trans hmiddle.1.length_le hdepth) hends.carriesOn
      exact readsUpTo_operator hjoin htighter hright.consumes.1.length_le
        (ihleft depth hdepth (carriesOn_of_join? hjoin)) (hright'.reads hends)
  | sign hsign hoperand ih =>
      intro depth hdepth hrest
      have hread := (ih depth (Nat.le_of_succ_le hdepth) hrest).reads (hrest.ends_unary)
      exact readsUpTo_unary (reads_unary_sign hsign hread)
  | index htarget hplace ihtarget ihplace =>
      intro depth hdepth hrest
      have hmiddle := htarget.consumes.of_cons
      have hwithin : ReadsWithin _ _ _ := fun depth hdepth hends =>
        (ihplace depth hdepth hends.carriesOn).reads hends
      have hread := hwithin.reads (Nat.lt_of_lt_of_le hmiddle.2 hdepth) (ends_of_strength? rfl _)
      exact readsUpTo_index hplace.consumes.of_cons.1.length_le
        (ihtarget depth hdepth (carriesOn_of_strength? rfl (by decide))) hread
  | property htarget ih =>
      intro depth hdepth hrest
      exact readsUpTo_property (ih depth hdepth (carriesOn_of_strength? rfl (by decide)))
  | constant hconstant =>
      intro depth hdepth hrest
      exact readsUpTo_primary (reads_constant hconstant)
  | var =>
      intro depth hdepth hrest
      refine readsUpTo_primary (reads_var ?_)
      intro hfront
      exact absurd (hrest 8 (by rw [hfront]; rfl)) (by decide)
  | call hseparated harguments ih =>
      intro depth hdepth hrest
      refine readsUpTo_primary (reads_call hseparated ?_)
      refine readsItem_of_within rfl rfl rfl hseparated (Nat.lt_of_succ_lt hdepth) harguments ?_
      exact fun piece hpiece depth hdepth hends =>
        (ih piece hpiece depth hdepth hends.carriesOn).reads hends
  | list hseparated helements ih =>
      intro depth hdepth hrest
      refine readsUpTo_primary (reads_list hseparated ?_)
      refine readsItem_of_within rfl rfl rfl hseparated hdepth helements ?_
      exact fun piece hpiece depth hdepth hends =>
        (ih piece hpiece depth hdepth hends.carriesOn).reads hends
  | record hseparated hkeys hvalues ih =>
      intro depth hdepth hrest
      refine readsUpTo_primary (reads_record hseparated ?_)
      refine readsItem_of_entries hseparated hdepth hkeys hvalues ?_
      exact fun entry hentry depth hdepth hends =>
        (ih entry hentry depth hdepth hends.carriesOn).reads hends
  | parentheses hinner ih =>
      intro depth hdepth hrest
      have hwithin : ReadsWithin _ _ _ := fun depth hdepth hends =>
        (ih depth hdepth hends.carriesOn).reads hends
      have hread := hwithin.reads hdepth (ends_of_strength? rfl _)
      exact readsUpTo_primary (reads_parentheses hread)

theorem reads_expression {input rest : List Token} {tree : Expr}
    (h : Expression .disjunction input rest tree) (hends : Ends .disjunction rest) :
    Reads expression input rest tree := by
  refine (reads_remaining input).bind ?_
  exact (readsUpTo_of_expression h input.length (Nat.le_refl _) hends.carriesOn).reads hends

end Parser

end Bhasha
