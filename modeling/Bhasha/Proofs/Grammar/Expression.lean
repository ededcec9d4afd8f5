import Bhasha.Program
import Bhasha.Proofs.Grammar.Layout

/-!
# The grammar of expressions

Expressions have eight levels.  The five levels of binary operators group to the left: the left
operand is a phrase of the same level and the right one a phrase of the next.  The grammar does
not say how far a phrase reaches, so `a` alone is a phrase at the front of `a + b`; what decides
is what has to follow.
-/

namespace Bhasha

namespace Grammar

/-- The levels of expressions, from the loosest to the tightest. -/
inductive Level where
  | disjunction
  | conjunction
  | comparison
  | additive
  | multiplicative
  | unary
  | suffixed
  | primary
deriving DecidableEq

namespace Level

/-- The next tighter level. -/
def tighter? : Level → Option Level
  | disjunction => some conjunction
  | conjunction => some comparison
  | comparison => some additive
  | additive => some multiplicative
  | multiplicative => some unary
  | unary => some suffixed
  | suffixed => some primary
  | primary => none

/-- The node that a token of a level builds of the operands around it, and of its line. -/
def join? : Level → TokenKind → Option (Expr → Expr → Nat → Expr)
  | disjunction, .keyword .wa => some (.logical .or)
  | disjunction, .symbol .orOr => some (.logical .or)
  | conjunction, .keyword .ra => some (.logical .and)
  | conjunction, .symbol .andAnd => some (.logical .and)
  | comparison, .symbol .equalEqual => some (.binary .equal)
  | comparison, .symbol .notEqual => some (.binary .notEqual)
  | comparison, .symbol .less => some (.binary .less)
  | comparison, .symbol .lessEqual => some (.binary .lessEqual)
  | comparison, .symbol .greater => some (.binary .greater)
  | comparison, .symbol .greaterEqual => some (.binary .greaterEqual)
  | additive, .symbol .plus => some (.binary .add)
  | additive, .symbol .minus => some (.binary .subtract)
  | multiplicative, .symbol .star => some (.binary .multiply)
  | multiplicative, .symbol .slash => some (.binary .divide)
  | multiplicative, .symbol .percent => some (.binary .modulo)
  | _, _ => none

end Level

/-- The operator that a token in front of an operand is. -/
def sign? : TokenKind → Option UnaryOp
  | .symbol .bang => some .not
  | .keyword .hoina => some .not
  | .symbol .minus => some .negate
  | _ => none

/-- The constant that a token is. -/
def constant? : TokenKind → Option Literal
  | .number value => some (.number value)
  | .text value => some (.text value)
  | .keyword .satya => some (.boolean true)
  | .keyword .asatya => some (.boolean false)
  | .keyword .khali => some .null
  | _ => none

/-- The key of a record entry, which is a word or a text, with the colon and the newlines behind
it. -/
inductive Key : List Token → String → List Token → Prop where
  | word {position colon : Position} {key : String} {input rest : List Token} :
      Newlines input rest →
      Key (⟨.word key, position⟩ :: ⟨.symbol .colon, colon⟩ :: input) key rest
  | text {position colon : Position} {key : String} {input rest : List Token} :
      Newlines input rest →
      Key (⟨.text key, position⟩ :: ⟨.symbol .colon, colon⟩ :: input) key rest

/-- An entry of a record: its key reaches from `start` to `middle`, and its value from there to
`stop`. -/
structure Entry where
  start : List Token
  key : String
  middle : List Token
  value : Expr
  stop : List Token

namespace Entry

/-- The entry as a whole. -/
def piece (entry : Entry) : Piece (String × Expr) :=
  ⟨entry.start, entry.stop, (entry.key, entry.value)⟩

end Entry

/-- The phrases of a level: a phrase stands between the two token lists and spells the tree. -/
inductive Expression : Level → List Token → List Token → Expr → Prop where
  | tighter {level next : Level} {input rest : List Token} {tree : Expr} :
      level.tighter? = some next → Expression next input rest tree →
      Expression level input rest tree
  | joined {level next : Level} {kind : TokenKind} {position : Position}
      {input middle rest : List Token} {join : Expr → Expr → Nat → Expr} {left right : Expr} :
      level.join? kind = some join → level.tighter? = some next →
      Expression level input (⟨kind, position⟩ :: middle) left →
      Expression next middle rest right →
      Expression level input rest (join left right position.line)
  | sign {kind : TokenKind} {position : Position} {input rest : List Token} {op : UnaryOp}
      {operand : Expr} :
      sign? kind = some op → Expression .unary input rest operand →
      Expression .unary (⟨kind, position⟩ :: input) rest (.unary op operand position.line)
  | index {opening closing : Position} {input middle rest : List Token} {target place : Expr} :
      Expression .suffixed input (⟨.symbol .leftBracket, opening⟩ :: middle) target →
      Expression .disjunction middle (⟨.symbol .rightBracket, closing⟩ :: rest) place →
      Expression .suffixed input rest (.index target place opening.line)
  | property {dot position : Position} {name : String} {input rest : List Token}
      {target : Expr} :
      Expression .suffixed input (⟨.symbol .dot, dot⟩ :: ⟨.word name, position⟩ :: rest) target →
      Expression .suffixed input rest (.property target name dot.line)
  | constant {kind : TokenKind} {position : Position} {rest : List Token} {value : Literal} :
      constant? kind = some value →
      Expression .primary (⟨kind, position⟩ :: rest) rest (.literal value position.line)
  | var {position : Position} {name : String} {rest : List Token} :
      Expression .primary (⟨.word name, position⟩ :: rest) rest (.var name position.line)
  | call {position opening : Position} {name : String} {input rest : List Token}
      {arguments : List (Piece Expr)} :
      Separated .rightParen input arguments rest →
      (∀ piece ∈ arguments, Expression .disjunction piece.start piece.stop piece.tree) →
      Expression .primary (⟨.word name, position⟩ :: ⟨.symbol .leftParen, opening⟩ :: input) rest
        (.call name (arguments.map Piece.tree) position.line)
  | list {position : Position} {input rest : List Token} {elements : List (Piece Expr)} :
      Separated .rightBracket input elements rest →
      (∀ piece ∈ elements, Expression .disjunction piece.start piece.stop piece.tree) →
      Expression .primary (⟨.symbol .leftBracket, position⟩ :: input) rest
        (.list (elements.map Piece.tree) position.line)
  | record {position : Position} {input rest : List Token} {entries : List Entry} :
      Separated .rightBrace input (entries.map Entry.piece) rest →
      (∀ entry ∈ entries, Key entry.start entry.key entry.middle) →
      (∀ entry ∈ entries, Expression .disjunction entry.middle entry.stop entry.value) →
      Expression .primary (⟨.symbol .leftBrace, position⟩ :: input) rest
        (.record (entries.map fun entry => (entry.key, entry.value)) position.line)
  | parentheses {opening closing : Position} {input rest : List Token} {inner : Expr} :
      Expression .disjunction input (⟨.symbol .rightParen, closing⟩ :: rest) inner →
      Expression .primary (⟨.symbol .leftParen, opening⟩ :: input) rest inner

theorem Key.suffix {input rest : List Token} {key : String} (h : Key input key rest) :
    rest <:+ input := by
  cases h with
  | word hnewlines =>
      exact (hnewlines.suffix.trans (List.suffix_cons _ _)).trans (List.suffix_cons _ _)
  | text hnewlines =>
      exact (hnewlines.suffix.trans (List.suffix_cons _ _)).trans (List.suffix_cons _ _)

theorem Key.front_ne_newline {input rest : List Token} {key : String} (h : Key input key rest) :
    front input ≠ .newline := by
  cases h <;> simp

theorem Key.front_ne_rightBrace {input rest : List Token} {key : String} (h : Key input key rest) :
    front input ≠ .symbol .rightBrace := by
  cases h <;> simp

/-- Pieces that are record entries, with the places where their values start. -/
theorem exists_entries {pieces : List (Piece (String × Expr))}
    (h : ∀ piece ∈ pieces, ∃ middle, Key piece.start piece.tree.1 middle ∧
      Expression .disjunction middle piece.stop piece.tree.2) :
    ∃ entries : List Entry, entries.map Entry.piece = pieces ∧
      (∀ entry ∈ entries, Key entry.start entry.key entry.middle) ∧
      ∀ entry ∈ entries, Expression .disjunction entry.middle entry.stop entry.value := by
  induction pieces with
  | nil => exact ⟨[], rfl, by simp, by simp⟩
  | cons piece pieces ih =>
      obtain ⟨middle, hkey, hvalue⟩ := h piece (by simp)
      obtain ⟨entries, rfl, hkeys, hvalues⟩ := ih fun other hother => h other (by simp [hother])
      refine ⟨⟨piece.start, piece.tree.1, middle, piece.tree.2, piece.stop⟩ :: entries,
        rfl, ?_, ?_⟩
      · simpa using And.intro hkey hkeys
      · simpa using And.intro hvalue hvalues

end Grammar

end Bhasha
