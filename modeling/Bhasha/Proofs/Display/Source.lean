import Bhasha.Proofs.Display.Copy
import Bhasha.Proofs.Display.Cutting
import Bhasha.Proofs.Grammar.PrintedExpression
import Bhasha.Proofs.Number.ReadBack
import Bhasha.Proofs.Parser.Acceptance
import Bhasha.Proofs.Store.Closed

/-!
# Displayed containers are source text

The text of a container is an expression that builds a copy of it, if there is no circle in it and
everything inside can be written down.  What is shown twice is built twice, so sharing is lost.
-/

namespace Bhasha

open Grammar Lexer

theorem exists_forall₂ {α β : Type} {related : α → β → Prop} {items : List α}
    (h : ∀ item ∈ items, ∃ other, related item other) :
    ∃ others, List.Forall₂ related items others := by
  induction items with
  | nil => exact ⟨[], .nil⟩
  | cons item items ih =>
      obtain ⟨other, hother⟩ := h item (by simp)
      obtain ⟨others, hothers⟩ := ih fun later hlater => h later (by simp [hlater])
      exact ⟨other :: others, .cons hother hothers⟩

namespace Value

/-- What can be written down: finite numbers, texts that are readable between quotes, lists, and
records whose keys are names. -/
def Plain (store : Store) : Value → Prop
  | number value => value.isFinite = true
  | text value => ∀ c ∈ value.toList, Text.Readable c
  | boolean _ | null => False
  | list address => ∃ items, store.get? address = some (.list items)
  | record address => ∃ fields, store.get? address = some (.record fields) ∧
      fields.names.Nodup ∧ ∀ name ∈ fields.names, Lexer.isName name = true

/-- A value that is built of what can be written down, without circles. -/
structure Writable (store : Store) (value : Value) : Prop where
  plain : value.Plain store
  inside : ∀ address, store.Reaches address value →
    ∀ item ∈ store.contents address, item.Plain store
  acyclic : ∀ address, store.Reaches address value →
    ∀ item ∈ store.contents address, ¬store.Reaches address item

/-- The text is cut into tokens of these kinds, and they derive an expression that builds a copy of
the value. -/
structure Spelling (store : Store) (value : Value) (text : List Char) (kinds : List TokenKind) :
    Prop where
  cuts : Cuts Parted text kinds
  derives {input rest : List Token} : Prints kinds input rest →
    ∃ tree, Expression .disjunction input rest tree ∧ tree.Builds store value

variable {store : Store} {value : Value} {address : Address}

theorem Writable.content {item : Value} (h : value.Writable store)
    (haddress : value.address? = some address) (hitem : item ∈ store.contents address) :
    item.Writable store where
  plain := h.inside address (.here haddress) item hitem
  inside other hother := h.inside other (.inside haddress hitem hother)
  acyclic other hother := h.acyclic other (.inside haddress hitem hother)

theorem expression_number (number : Float) (level : Level) (position : Position)
    (rest : List Token) :
    Expression level (⟨.number number, position⟩ :: rest) rest
      (.literal (.number number) position.line) := by
  have hprimary : Expression .primary (⟨.number number, position⟩ :: rest) rest
      (.literal (.number number) position.line) := .constant rfl
  exact hprimary.loosen (by cases level <;> decide)

theorem exists_spelling_number {number : Float} (h : number.isFinite = true) :
    ∃ kinds, Spelling store (.number number) (Number.digits number) kinds := by
  obtain ⟨numeral, ⟨hdigits, hvalue⟩ | ⟨hdigits, hvalue⟩⟩ := Number.digits_of_finite h
  · rw [hdigits]
    refine ⟨_, cuts_numeral numeral, ?_⟩
    intro input rest hprints
    simp only [prints_cons, prints_nil] at hprints
    obtain ⟨position, middle, rfl, rfl⟩ := hprints
    exact ⟨_, expression_number _ _ _ _, Expr.builds_number hvalue position.line⟩
  · have hminus : Cuts Whatever ['-'] [.symbol .minus] := cuts_of_step fun _ _ => rfl
    rw [hdigits]
    refine ⟨_, hminus.then (cuts_numeral numeral), ?_⟩
    intro input rest hprints
    simp only [List.cons_append, List.nil_append, prints_cons, prints_nil] at hprints
    obtain ⟨first, _, rfl, position, middle, rfl, rfl⟩ := hprints
    have hsigned : Expression .unary
        (⟨.symbol .minus, first⟩ :: ⟨.number numeral.value, position⟩ :: middle) middle
        (.unary .negate (.literal (.number numeral.value) position.line) first.line) :=
      .sign (sign?_kind .negate) (expression_number _ _ _ _)
    exact ⟨_, hsigned.loosen (Nat.zero_le _), Expr.builds_negated hvalue first.line position.line⟩

theorem exists_spelling_text {text : String} (h : ∀ c ∈ text.toList, Text.Readable c) :
    ∃ kinds, Spelling store (.text text) (Text.quoted text.toList) kinds := by
  refine ⟨_, (cuts_quoted h).anywhere, ?_⟩
  intro input rest hprints
  simp only [prints_cons, prints_nil] at hprints
  obtain ⟨position, middle, rfl, rfl⟩ := hprints
  have hprimary : Expression .primary (⟨.text text, position⟩ :: middle) middle
      (.literal (.text text) position.line) := .constant rfl
  exact ⟨_, hprimary.loosen (Nat.zero_le _), Expr.builds_text text position.line⟩

theorem exists_spelling_list {items : Array Value} {text : Value → List Char}
    (hget : store.get? address = some (.list items))
    (h : ∀ item ∈ items.toList, ∃ kinds, Spelling store item (text item) kinds) :
    ∃ kinds, Spelling store (.list address)
      ('[' :: commaSeparated (items.toList.map text) ++ [']']) kinds := by
  obtain ⟨kinds, hspellings⟩ := exists_forall₂ h
  have hcuts : List.Forall₂ (Cuts Parted) (items.toList.map text) kinds := by
    rw [List.forall₂_map_left_iff]
    exact hspellings.imp fun _ _ h => h.cuts
  have hopening (rest : List Char) : step '[' rest = .token (.symbol .leftBracket) 0 := rfl
  have hclosing (rest : List Char) : step ']' rest = .token (.symbol .rightBracket) 0 := rfl
  refine ⟨_, cuts_enclosed hopening hclosing (by simp) hcuts, ?_⟩
  intro input rest hprints
  obtain ⟨position, middle, rfl, hinside⟩ := prints_cons.mp hprints
  have hpieces : ∃ pieces : List (Piece Expr), Separated .rightBracket middle pieces rest ∧
      (∀ piece ∈ pieces, Expression .disjunction piece.start piece.stop piece.tree) ∧
      List.Forall₂ (Expr.Builds store) items.toList (pieces.map Piece.tree) :=
    exists_separated (hspellings.imp fun _ _ h => h.derives).flip hinside
  obtain ⟨pieces, hseparated, hphrases, htrees⟩ := hpieces
  have hprimary : Expression .primary (⟨.symbol .leftBracket, position⟩ :: middle) rest
      (.list (pieces.map Piece.tree) position.line) := .list hseparated hphrases
  exact ⟨_, hprimary.loosen (Nat.zero_le _), Expr.builds_list position.line hget htrees⟩

def entryText (text : Value → List Char) (entry : String × Value) : List Char :=
  entry.1.toList ++ ':' :: ' ' :: text entry.2

theorem cuts_entry {key : String} {text : List Char} {kinds : List TokenKind}
    (hkey : Lexer.isName key = true) (h : Cuts Parted text kinds) :
    Cuts Parted (key.toList ++ ':' :: ' ' :: text) (.word key :: .symbol .colon :: kinds) := by
  have hcolon : Cuts Whatever [':'] [.symbol .colon] := cuts_of_step fun _ _ => rfl
  exact (cuts_name hkey).before_mark (by simp) (hcolon.then (cuts_blank.then h))

/-- The tokens of an entry are its key, a colon and the tokens of its value. -/
theorem exists_spelling_entry {text : Value → List Char} {field : String × Value}
    (hname : Lexer.isName field.1 = true)
    (h : ∃ kinds, Spelling store field.2 (text field.2) kinds) :
    ∃ kinds : List TokenKind, Cuts Parted (entryText text field) kinds ∧
      ∀ {input rest : List Token}, Prints kinds input rest → ∃ tree : String × Expr,
        (∃ middle, Key input tree.1 middle ∧ Expression .disjunction middle rest tree.2) ∧
          tree.1 = field.1 ∧ tree.2.Builds store field.2 := by
  obtain ⟨kinds, hspelling⟩ := h
  refine ⟨_, cuts_entry hname hspelling.cuts, ?_⟩
  intro input rest hprints
  simp only [prints_cons] at hprints
  obtain ⟨position, _, rfl, colon, middle, rfl, hvalue⟩ := hprints
  obtain ⟨tree, hphrase, htree⟩ := hspelling.derives hvalue
  exact ⟨(field.1, tree), ⟨middle, .word (.none middle), hphrase⟩, rfl, htree⟩

theorem exists_spelling_record {fields : Table Value} {text : Value → List Char}
    (hget : store.get? address = some (.record fields)) (hnodup : fields.names.Nodup)
    (hnames : ∀ name ∈ fields.names, Lexer.isName name = true)
    (h : ∀ field ∈ fields.entries, ∃ kinds, Spelling store field.2 (text field.2) kinds) :
    ∃ kinds, Spelling store (.record address)
      ('{' :: commaSeparated (fields.entries.map (entryText text)) ++ ['}']) kinds := by
  obtain ⟨kinds, hspellings⟩ := exists_forall₂ fun field hfield =>
    exists_spelling_entry (hnames field.1 (List.mem_map_of_mem hfield)) (h field hfield)
  have hcuts : List.Forall₂ (Cuts Parted) (fields.entries.map (entryText text)) kinds := by
    rw [List.forall₂_map_left_iff]
    exact hspellings.imp fun _ _ h => h.1
  have hopening (rest : List Char) : step '{' rest = .token (.symbol .leftBrace) 0 := rfl
  have hclosing (rest : List Char) : step '}' rest = .token (.symbol .rightBrace) 0 := rfl
  refine ⟨_, cuts_enclosed hopening hclosing (by simp) hcuts, ?_⟩
  intro input rest hprints
  obtain ⟨position, middle, rfl, hinside⟩ := prints_cons.mp hprints
  have hpieces : ∃ pieces : List (Piece (String × Expr)),
      Separated .rightBrace middle pieces rest ∧
      (∀ piece ∈ pieces, ∃ value, Key piece.start piece.tree.1 value ∧
        Expression .disjunction value piece.stop piece.tree.2) ∧
      List.Forall₂ (fun field entry => entry.1 = field.1 ∧ Expr.Builds store field.2 entry.2)
        fields.entries (pieces.map Piece.tree) :=
    exists_separated (hspellings.imp fun _ _ h => h.2).flip hinside
  obtain ⟨pieces, hseparated, hphrases, htrees⟩ := hpieces
  obtain ⟨entries, rfl, hkeys, hvalues⟩ := exists_entries hphrases
  rw [List.map_map] at htrees
  have hprimary : Expression .primary (⟨.symbol .leftBrace, position⟩ :: middle) rest
      (.record (entries.map fun entry => (entry.key, entry.value)) position.line) :=
    .record hseparated hkeys hvalues
  exact ⟨_, hprimary.loosen (Nat.zero_le _),
    Expr.builds_record position.line hget hnodup htrees⟩

/-- A value that can be written down, and a path of containers around it that it does not lead back
to. -/
structure Beneath (store : Store) (path : List Address) (value : Value) : Prop where
  writable : value.Writable store
  apart : ∀ address ∈ path, ¬store.Reaches address value
  nodup : path.Nodup
  inside : ∀ address ∈ path, address < store.size

namespace Beneath

variable {path : List Address} {container : Container}

theorem not_mem_path (h : Beneath store path value) (haddress : value.address? = some address) :
    address ∉ path :=
  fun hpath => h.apart address hpath (.here haddress)

theorem path_cons (h : Beneath store path value) (haddress : value.address? = some address)
    (hget : store.get? address = some container) :
    (address :: path).Nodup ∧ ∀ other ∈ address :: path, other < store.size := by
  constructor
  · exact List.nodup_cons.mpr ⟨h.not_mem_path haddress, h.nodup⟩
  · intro other hother
    rcases List.mem_cons.mp hother with rfl | hother
    · exact (Array.getElem?_eq_some_iff.mp hget).1
    · exact h.inside other hother

theorem length_lt (h : Beneath store path value) (haddress : value.address? = some address)
    (hget : store.get? address = some container) : path.length < store.size := by
  obtain ⟨hnodup, hinside⟩ := h.path_cons haddress hget
  exact Store.length_le_size hnodup hinside

theorem content (h : Beneath store path value) (haddress : value.address? = some address)
    (hget : store.get? address = some container) {item : Value}
    (hitem : item ∈ container.contents) :
    Beneath store (address :: path) item := by
  rw [← Store.contents_of_get? hget] at hitem
  obtain ⟨hnodup, hinside⟩ := h.path_cons haddress hget
  refine ⟨h.writable.content haddress hitem, ?_, hnodup, hinside⟩
  intro other hother hreaches
  rcases List.mem_cons.mp hother with rfl | hother
  · exact h.writable.acyclic other (.here haddress) item hitem hreaches
  · exact h.apart other hother (.inside haddress hitem hreaches)

end Beneath

theorem exists_spelling_innerText {depth : Nat} {path : List Address}
    (h : Beneath store path value) (hdepth : store.size ≤ depth + path.length) :
    ∃ kinds, Spelling store value (innerText store depth path value) kinds := by
  induction depth generalizing path value with
  | zero =>
      have hplain := h.writable.plain
      cases value with
      | number number => exact exists_spelling_number hplain
      | text text => exact exists_spelling_text hplain
      | boolean | null => exact hplain.elim
      | list address =>
          obtain ⟨items, hget⟩ := hplain
          have hlength := h.length_lt rfl hget
          omega
      | record address =>
          obtain ⟨fields, hget, _⟩ := hplain
          have hlength := h.length_lt rfl hget
          omega
  | succ depth ih =>
      have hplain := h.writable.plain
      have hitems {address : Address} {container : Container}
          (haddress : value.address? = some address)
          (hget : store.get? address = some container) :
          ∀ item ∈ container.contents, ∃ kinds,
            Spelling store item (innerText store depth (address :: path) item) kinds := by
        intro item hitem
        apply ih (h.content haddress hget hitem)
        rw [List.length_cons]
        omega
      cases value with
      | number number => exact exists_spelling_number hplain
      | text text => exact exists_spelling_text hplain
      | boolean | null => exact hplain.elim
      | list address =>
          obtain ⟨items, hget⟩ := hplain
          have hfound : store.items address = items := by
            unfold Store.items
            rw [hget]
          rw [innerText, if_neg (h.not_mem_path rfl), hfound]
          exact exists_spelling_list hget (hitems rfl hget)
      | record address =>
          obtain ⟨fields, hget, hnodup, hnames⟩ := hplain
          have hfound : store.fields address = fields := by
            unfold Store.fields
            rw [hget]
          rw [innerText, if_neg (h.not_mem_path rfl), hfound]
          apply exists_spelling_record hget hnodup hnames
          intro field hfield
          exact hitems rfl hget field.2 (List.mem_map_of_mem hfield)

theorem exists_spelling (h : value.Writable store) (hcontainer : value.address? = some address) :
    ∃ kinds, Spelling store value (value.display store).toList kinds := by
  have hbeneath : Beneath store [] value := ⟨h, by simp, List.nodup_nil, by simp⟩
  have hdisplay : (value.display store).toList = innerText store store.size [] value := by
    cases value with
    | list | record => exact String.toList_ofList
    | _ => cases hcontainer
  rw [hdisplay]
  exact exists_spelling_innerText hbeneath (Nat.le_refl _)

theorem Spelling.reads {text : String} {kinds : List TokenKind}
    (h : Spelling store value text.toList kinds) :
    ∃ tree final, Parser.expression (Lexer.lex text) = .ok (tree, ⟨[], .ok final⟩) ∧
      Parser.readFront Parser.expression text = .ok tree ∧ tree.Builds store value := by
  obtain ⟨tokens, final, hkinds, hlex⟩ := h.cuts [] Breaks.finish.parted .start
  rw [List.append_nil, lexFrom, List.append_nil] at hlex
  have hlexed : Lexer.lex text = ⟨tokens, .ok final⟩ := hlex
  have hprints : Prints kinds tokens [] := ⟨tokens, hkinds, (List.append_nil tokens).symm⟩
  obtain ⟨tree, hphrase, hbuilds⟩ := h.derives hprints
  have hends : Ends .disjunction [] := by
    intro strength hstrength
    cases hstrength
  have hread : Parser.expression ⟨tokens, .ok final⟩ = .ok (tree, ⟨[], .ok final⟩) :=
    Parser.reads_expression hphrase hends final
  have hfront : Parser.readFront Parser.expression text = .ok tree :=
    (Parser.readFront_eq_ok hlexed tree).mpr ⟨_, hread⟩
  rw [hlexed]
  exact ⟨tree, final, hread, hfront, hbuilds⟩

/-- The text of a container without circles, made of what can be written down, is read to its end as
an expression.  In every context the expression gives a new value with the same structure, and
leaves all bindings and containers as they are. -/
theorem display_is_source (h : value.Writable store)
    (hcontainer : value.address? = some address) :
    ∃ tree final,
      Parser.expression (Lexer.lex (value.display store)) = .ok (tree, ⟨[], .ok final⟩) ∧
      Parser.readFront Parser.expression (value.display store) = .ok tree ∧
      ∃ fuel, ∀ more, fuel ≤ more → ∀ context : Context, ∃ copy extended,
        eval more tree context = .ok copy { context with store := extended } ∧
          extended.Extends context.store ∧
          value.Copy store context.store.size extended copy ∧
          ∀ target, extended.Reaches target copy → context.store.size ≤ target := by
  obtain ⟨kinds, hspelling⟩ := exists_spelling h hcontainer
  obtain ⟨tree, final, hread, hfront, fuel, heval⟩ := hspelling.reads
  refine ⟨tree, final, hread, hfront, fuel, ?_⟩
  intro more hmore context
  obtain ⟨copy, extended, hresult, hextends, hcopy⟩ := heval more hmore context
  exact ⟨copy, extended, hresult, hextends, hcopy, fun _ => hcopy.low_le_of_reaches⟩

/-- A list is held twice by a record. -/
theorem display_is_source_of_shared_list :
    let store : Store :=
      ⟨#[.list #[.number (-0.5), .text "a\"\n"], .record ⟨[("x", .list 0), ("y", .list 0)]⟩]⟩
    Writable store (.record 1) ∧
      ∃ tree, Parser.readFront Parser.expression
          "\x7bx: [-0.5, \"a\\\"\\n\"], y: [-0.5, \"a\\\"\\n\"]\x7d" = .ok tree ∧
        ∃ fuel, ∀ context : Context, ∃ copy extended,
          eval fuel tree context = .ok copy { context with store := extended } ∧
            (record 1).Copy store context.store.size extended copy := by
  intro store
  have hplain : ∀ address, ∀ item ∈ store.contents address, item.Plain store := by
    intro address item hitem
    have hlt : address < 2 := Store.address_lt_size hitem
    have hnumber : (-0.5 : Float).isFinite = true := by decide +kernel
    have htext : ∀ c ∈ "a\"\n".toList, Text.Readable c := by
      intro c hc
      have hcases : c = 'a' ∨ c = '"' ∨ c = '\n' := by simpa using hc
      rcases hcases with rfl | rfl | rfl <;> decide +kernel
    rcases Nat.le_one_iff_eq_zero_or_eq_one.mp (Nat.le_of_lt_succ hlt) with rfl | rfl
    · have hcontents : store.contents 0 = [.number (-0.5), .text "a\"\n"] := rfl
      simp only [hcontents, List.mem_cons, List.not_mem_nil, or_false] at hitem
      rcases hitem with rfl | rfl
      · exact hnumber
      · exact htext
    · have hcontents : store.contents 1 = [.list 0, .list 0] := rfl
      simp only [hcontents, List.mem_cons, List.not_mem_nil, or_false, or_self] at hitem
      subst hitem
      exact ⟨_, rfl⟩
  have hacyclic : ∀ address, ∀ item ∈ store.contents address, ¬store.Reaches address item := by
    intro address item hitem
    rw [← displayReads_iff, Bool.not_eq_true]
    have hlt : address < 2 := Store.address_lt_size hitem
    have hall : ∀ other : Nat, other < 2 → ∀ item ∈ store.contents other,
        item.displayReads store other = false := by
      decide +kernel
    exact hall address hlt item hitem
  have hwritable : Writable store (.record 1) := by
    refine ⟨⟨_, rfl, ?_, ?_⟩, fun address _ => hplain address, fun address _ => hacyclic address⟩
    · decide +kernel
    · decide +kernel
  refine ⟨hwritable, ?_⟩
  obtain ⟨tree, final, _, hread, fuel, heval⟩ := display_is_source hwritable rfl
  have hdisplay : (record 1).display store =
      "\x7bx: [-0.5, \"a\\\"\\n\"], y: [-0.5, \"a\\\"\\n\"]\x7d" := by
    decide +kernel
  rw [hdisplay] at hread
  refine ⟨tree, hread, fuel, ?_⟩
  intro context
  obtain ⟨copy, extended, hresult, _, hcopy, _⟩ := heval fuel (Nat.le_refl _) context
  exact ⟨copy, extended, hresult, hcopy⟩

end Value

end Bhasha
