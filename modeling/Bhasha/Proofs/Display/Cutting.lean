import Bhasha.Proofs.Program.Printer
import Bhasha.Value.Display
import Mathlib.Data.List.Forall2

/-!
# Cutting displayed values into tokens

The text of a container is put together of pieces, and each piece is cut into tokens for itself.
The marks and the quoted texts of a list or a record are cut in front of anything, the numbers and
keys in front of the marks that stand behind them.
-/

namespace Bhasha

namespace Lexer

variable {behind before : List Char → Prop} {text other : List Char} {kinds others : List TokenKind}

/-- A piece of a source text is cut into tokens of these kinds, if what stands behind it is as
described. -/
def Cuts (behind : List Char → Prop) (text : List Char) (kinds : List TokenKind) : Prop :=
  ∀ following, behind following → ∀ position, ∃ tokens final, tokens.map Token.kind = kinds ∧
    lexFrom position (text ++ following) =
      ⟨tokens ++ (lexFrom final following).tokens, (lexFrom final following).ending⟩

/-- Anything may stand behind the piece. -/
def Whatever (_ : List Char) : Prop :=
  True

theorem Cuts.anywhere (h : Cuts Whatever text kinds) : Cuts behind text kinds := by
  intro following _
  exact h following trivial

theorem Cuts.append (h : Cuts before text kinds) (hother : Cuts behind other others)
    (hbefore : ∀ following, behind following → before (other ++ following)) :
    Cuts behind (text ++ other) (kinds ++ others) := by
  intro following hfollowing position
  obtain ⟨tokens, middle, hkinds, hlex⟩ := h (other ++ following) (hbefore following hfollowing)
    position
  obtain ⟨later, final, hlater, hlexLater⟩ := hother following hfollowing middle
  refine ⟨tokens ++ later, final, ?_, ?_⟩
  · rw [List.map_append, hkinds, hlater]
  · rw [List.append_assoc, hlex, hlexLater, List.append_assoc]

theorem Cuts.then (h : Cuts Whatever text kinds) (hother : Cuts behind other others) :
    Cuts behind (text ++ other) (kinds ++ others) :=
  h.append hother fun _ _ => trivial

theorem cuts_of_step {first : Char} {rest : List Char} {kind : TokenKind}
    (h : ∀ following, behind following →
      step first (rest ++ following) = .token kind rest.length) :
    Cuts behind (first :: rest) [kind] := by
  intro following hfollowing position
  have hstep := h following hfollowing
  refine ⟨[⟨kind, position⟩], position.after (first :: rest), rfl, ?_⟩
  rw [List.cons_append, lexFrom, hstep]
  simp only [List.take_left, List.drop_left]
  rfl

theorem cuts_blank : Cuts Whatever [' '] [] := by
  intro following _ position
  have hstep : step ' ' following = .skip 0 := rfl
  refine ⟨[], position.after [' '], rfl, ?_⟩
  rw [List.cons_append, List.nil_append, lexFrom, hstep]
  rfl

theorem cuts_numeral (numeral : Numeral) :
    Cuts Parted (numeral.first :: numeral.tail) [.number numeral.value] :=
  cuts_of_step fun _ hfollowing => step_numeral numeral hfollowing

theorem cuts_name {name : String} (h : isName name = true) :
    Cuts Parted name.toList [.word name] := by
  unfold isName at h
  cases hword : name.toList with
  | nil => simp [hword] at h
  | cons first rest =>
      simp only [hword, Bool.and_eq_true, Option.isNone_iff_eq_none] at h
      apply cuts_of_step
      intro following hfollowing
      rw [step_word hword h.1.1 h.1.2 hfollowing, h.2]

/-- What is cut in front of marks is cut if a piece follows that starts with one. -/
theorem Cuts.before_mark (h : Cuts Parted text kinds) {mark : Char}
    (hmark : mark ∈ [',', ':', ']', '}']) (hother : Cuts behind (mark :: other) others) :
    Cuts behind (text ++ mark :: other) (kinds ++ others) := by
  apply h.append hother
  intro following _ c hc
  cases hc
  simp only [List.mem_cons, List.not_mem_nil, or_false] at hmark
  rcases hmark with rfl | rfl | rfl | rfl <;> decide

end Lexer

namespace Text

/-- A character that a quoted text shows as it is, or with an escape that the lexer knows. -/
def Readable (c : Char) : Prop :=
  quotedChar c = [c] ∨ c ∈ ['"', '\\', '\n', '\r', '\t']

instance (c : Char) : Decidable (Readable c) :=
  inferInstanceAs (Decidable (quotedChar c = [c] ∨ c ∈ ['"', '\\', '\n', '\r', '\t']))

end Text

namespace Lexer

theorem closeText?_quotedChar {c : Char} (h : Text.Readable c) (rest : List Char) :
    closeText? '"' (Text.quotedChar c ++ rest) =
      (closeText? '"' rest).map fun (value, size) =>
        (c :: value, size + (Text.quotedChar c).length) := by
  have hbackslash (escaped : Char) :
      closeText? '"' ('\\' :: escaped :: rest) = _ :=
    closeText?_backslash (by decide) escaped rest
  rcases h with hplain | hescaped
  · have hquote : c ≠ '"' := by
      rintro rfl
      cases hplain
    have hslash : c ≠ '\\' := by
      rintro rfl
      cases hplain
    rw [hplain, List.singleton_append, closeText?_plain hquote hslash]
    rfl
  · simp only [List.mem_cons, List.not_mem_nil, or_false] at hescaped
    rcases hescaped with rfl | rfl | rfl | rfl | rfl <;> exact hbackslash _

theorem closeText?_quoted {value : List Char} (h : ∀ c ∈ value, Text.Readable c)
    (following : List Char) :
    closeText? '"' (value.flatMap Text.quotedChar ++ '"' :: following) =
      some (value, (value.flatMap Text.quotedChar).length + 1) := by
  induction value with
  | nil => exact closeText?_mark '"' following
  | cons c rest ih =>
      have hrest := ih fun other hother => h other (by simp [hother])
      rw [List.flatMap_cons, List.append_assoc, closeText?_quotedChar (h c (by simp)), hrest]
      simp only [Option.map_some, List.length_append]
      congr 2
      omega

theorem cuts_quoted {value : String} (h : ∀ c ∈ value.toList, Text.Readable c) :
    Cuts Whatever (Text.quoted value.toList) [.text value] := by
  unfold Text.quoted
  rw [List.cons_append]
  apply cuts_of_step
  intro following _
  have hstep (rest : List Char) : step '"' rest = textStep '"' rest := rfl
  rw [hstep, List.append_assoc, List.singleton_append]
  unfold textStep
  rw [closeText?_quoted h]
  simp

open Printer in
theorem cuts_commaSeparated {closing : Char} {mark : Symbol}
    (hclosing : ∀ rest, step closing rest = .token (.symbol mark) 0)
    (hmark : closing ∈ [',', ':', ']', '}']) {texts : List (List Char)}
    {kinds : List (List TokenKind)} (h : List.Forall₂ (Cuts Parted) texts kinds) :
    Cuts Whatever (Value.commaSeparated texts ++ [closing]) (commaList mark kinds) := by
  have hclose : Cuts Whatever [closing] [.symbol mark] :=
    cuts_of_step fun following _ => hclosing following
  induction h with
  | nil => exact hclose
  | @cons text kinds texts others htext hothers ih =>
      cases hothers with
      | nil =>
          unfold Value.commaSeparated
          rw [List.intercalate_singleton]
          exact htext.before_mark hmark hclose
      | @cons next nextKinds texts others hnext hothers =>
          have hcomma : Cuts Whatever [','] [.symbol .comma] :=
            cuts_of_step fun _ _ => rfl
          have hlater := hcomma.then (cuts_blank.then ih)
          have hjoined : Value.commaSeparated (text :: next :: texts) ++ [closing] =
              text ++ ',' :: ([' '] ++ (Value.commaSeparated (next :: texts) ++ [closing])) := by
            unfold Value.commaSeparated
            rw [List.intercalate_cons_cons]
            simp
          rw [hjoined, commaList_cons_cons]
          exact htext.before_mark (by simp) hlater

open Printer in
theorem cuts_enclosed {opening closing : Char} {first last : Symbol}
    (hopening : ∀ rest, step opening rest = .token (.symbol first) 0)
    (hclosing : ∀ rest, step closing rest = .token (.symbol last) 0)
    (hlast : closing ∈ [',', ':', ']', '}']) {texts : List (List Char)}
    {kinds : List (List TokenKind)} (h : List.Forall₂ (Cuts Parted) texts kinds) :
    Cuts behind (opening :: Value.commaSeparated texts ++ [closing])
      (.symbol first :: commaList last kinds) := by
  have hfirst : Cuts Whatever [opening] [.symbol first] :=
    cuts_of_step fun following _ => hopening following
  exact (hfirst.then (cuts_commaSeparated hclosing hlast h)).anywhere

end Lexer

end Bhasha
