import Bhasha.Proofs.Grammar.Follow

/-!
# No phrase reaches over the end of the input

The end of the input is no part of a phrase.  So it makes no difference whether it is the end of the
token list or a token of its own: a list may hold any number of such tokens, and a phrase in front
of them leaves all of them over.
-/

namespace Bhasha

namespace Grammar

/-- The number of tokens that are the end of the input. -/
def ends (tokens : List Token) : Nat :=
  tokens.countP (·.kind = .endOfInput)

variable {input rest : List Token}

@[simp] theorem ends_cons {kind : TokenKind} {position : Position} (h : kind ≠ .endOfInput) :
    ends (⟨kind, position⟩ :: rest) = ends rest := by
  simp [ends, h]

theorem Newlines.ends_eq (h : Newlines input rest) : ends input = ends rest := by
  induction h with
  | none => rfl
  | more _ ih => simpa using ih

section

variable {α : Type} {pieces : List (Piece α)}

theorem Separated.ends_eq {closing : Symbol} (h : Separated closing input pieces rest)
    (hpieces : ∀ piece ∈ pieces, ends piece.start = ends piece.stop) : ends input = ends rest := by
  induction h with
  | close hnewlines => simpa using hnewlines.ends_eq
  | last hstart hstop =>
      rw [hstart.ends_eq, hpieces _ List.mem_cons_self, hstop.ends_eq]
      simp
  | more hstart hstop _ ih =>
      rw [hstart.ends_eq, hpieces _ List.mem_cons_self, hstop.ends_eq]
      simpa using ih fun piece hpiece => hpieces piece (List.mem_cons_of_mem _ hpiece)

theorem Lines.ends_eq (h : Lines input pieces rest)
    (hpieces : ∀ piece ∈ pieces, ends piece.start = ends piece.stop) : ends input = ends rest := by
  induction h with
  | done hnewlines => exact hnewlines.ends_eq
  | more hstart _ ih =>
      rw [hstart.ends_eq, hpieces _ List.mem_cons_self]
      exact ih fun piece hpiece => hpieces piece (List.mem_cons_of_mem _ hpiece)

theorem Braced.ends_eq (h : Braced input pieces rest)
    (hpieces : ∀ piece ∈ pieces, ends piece.start = ends piece.stop) : ends input = ends rest := by
  obtain ⟨opening, closing, inner, hnewlines, hlines⟩ := h
  have hinner := hlines.ends_eq hpieces
  rw [hnewlines.ends_eq]
  simpa using hinner

end

theorem Key.ends_eq {key : String} (h : Key input key rest) : ends input = ends rest := by
  cases h with
  | word hnewlines | text hnewlines => simpa using hnewlines.ends_eq

theorem Expression.ends_eq {level : Level} {tree : Expr} (h : Expression level input rest tree) :
    ends input = ends rest := by
  induction h with
  | tighter _ _ ih => exact ih
  | @joined level _ kind _ _ _ _ _ _ _ hjoin _ _ _ ihleft ihright =>
      have hkind : kind ≠ .endOfInput := by
        rintro rfl
        cases level <;> cases hjoin
      rw [ihleft, ends_cons hkind, ihright]
  | @sign kind _ _ _ _ _ hsign _ ih =>
      have hkind : kind ≠ .endOfInput := by
        rintro rfl
        cases hsign
      rw [ends_cons hkind, ih]
  | index _ _ ihtarget ihplace => simp_all
  | property _ ih => simp_all
  | @constant kind _ _ _ hconstant =>
      have hkind : kind ≠ .endOfInput := by
        rintro rfl
        cases hconstant
      rw [ends_cons hkind]
  | var => simp
  | call hseparated _ ih => simpa using hseparated.ends_eq ih
  | list hseparated _ ih => simpa using hseparated.ends_eq ih
  | record hseparated hkeys _ ih =>
      have hentries := hseparated.ends_eq (List.forall_mem_map.mpr fun entry hentry =>
        (hkeys entry hentry).ends_eq.trans (ih entry hentry))
      simpa using hentries
  | parentheses _ ih => simpa using ih

theorem Parenthesized.ends_eq {tree : Expr} (h : Parenthesized input rest tree) :
    ends input = ends rest := by
  obtain ⟨opening, closing, inner, rfl, hinner⟩ := h
  simpa using hinner.ends_eq

theorem RangeStep.ends_eq {step : Option Expr} (h : RangeStep input rest step) :
    ends input = ends rest := by
  cases h with
  | none => rfl
  | some hstep => simpa using hstep.ends_eq

theorem Word.ends_eq {name : String} (h : Word input rest name) : ends input = ends rest := by
  obtain ⟨position, rfl⟩ := h
  simp

theorem Statement.ends_eq {form : Form} {tree : Stmt} (h : Statement form input rest tree) :
    ends input = ends rest := by
  induction h with
  | bare _ ih => exact ih
  | opened _ ih => simpa using ih
  | print hvalue => simpa using hvalue.ends_eq
  | declare hvalue => simpa using hvalue.ends_eq
  | branch hcondition hyes _ ih => simpa using hcondition.ends_eq.trans (hyes.ends_eq ih)
  | branchElse hcondition hyes _ hnewlines hno _ ih ihno =>
      have hbehind := hcondition.ends_eq.trans (hyes.ends_eq ih)
      have hother := hnewlines.ends_eq.trans (ends_cons (by simp))
      simpa using hbehind.trans (hother.trans (hno.ends_eq ihno))
  | branchElseIf hcondition hyes _ hnewlines _ ih ihno =>
      have hbehind := hcondition.ends_eq.trans (hyes.ends_eq ih)
      have hother := hnewlines.ends_eq.trans (ends_cons (by simp))
      simpa using hbehind.trans (hother.trans ihno)
  | loop hcondition hbody _ ih => simpa using hcondition.ends_eq.trans (hbody.ends_eq ih)
  | range hfirst hbound hstep hbody _ ih =>
      have hsecond := hfirst.ends_eq.trans (ends_cons (by simp))
      have hfourth := hstep.ends_eq.trans (ends_cons (by simp))
      simpa using hsecond.trans (hbound.ends_eq.trans (hfourth.trans (hbody.ends_eq ih)))
  | define hparameters hbody _ ih =>
      obtain ⟨pieces, hseparated, hwords, -⟩ := hparameters
      have hmiddle := hseparated.ends_eq fun piece hpiece => (hwords piece hpiece).ends_eq
      simpa using hmiddle.trans (hbody.ends_eq ih)
  | giveBack | leave | proceed => simp
  | giveBackValue hvalue => simpa using hvalue.ends_eq
  | attempt hbody _ hnewlines hhandler _ ih ihhandler =>
      have hclause := (hbody.ends_eq ih).trans hnewlines.ends_eq
      simpa [hclause] using hhandler.ends_eq ihhandler
  | assign hvalue => simpa using hvalue.ends_eq
  | assignIndex hplace hvalue => simpa [hplace.ends_eq] using hvalue.ends_eq
  | assignProperty hvalue => simpa using hvalue.ends_eq
  | call hcall => exact hcall.ends_eq

/-- What a phrase takes off the front holds no end of the input. -/
theorem exists_taken (hsuffix : rest <:+ input) (h : ends input = ends rest) :
    ∃ taken, input = taken ++ rest ∧ ∀ token ∈ taken, token.kind ≠ .endOfInput := by
  obtain ⟨taken, rfl⟩ := hsuffix
  refine ⟨taken, rfl, ?_⟩
  have hnone : ends taken = 0 := by
    simp only [ends, List.countP_append] at h ⊢
    omega
  simpa [ends] using hnone

end Grammar

end Bhasha
