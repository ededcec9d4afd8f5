import Bhasha.Proofs.Parser.Lockstep

/-!
# Recursions that go down

The functions of a parser call each other and themselves.  Here a recursion is a layer that makes
one step of it in terms of the parsers that the recursive calls stand for.  It goes down to a
solution if the layer only ever asks these parsers at states below its own, in an order without
endless descents.  Then what they are elsewhere makes no difference, and the solution is the only
one there is; a call that went on for ever would leave it open what its result is.

Repetition and nesting are bounded by numbers in the parsers that run.  If every round or nested
call has fewer tokens, then any bound above the number of tokens does as well as any other.
-/

namespace Bhasha

namespace Parser

variable {α β ι : Type}

/-- A parser leaves no more tokens than it is given. -/
def Steady (parser : Parser α) : Prop :=
  ∀ ⦃input output : Lexed⦄ ⦃result : α⦄, parser input = .ok (result, output) →
    output.tokens.length ≤ input.tokens.length

/-- In front of such tokens, a parser leaves fewer tokens than it is given. -/
def Shortens (here : TokenKind → Prop) (parser : Parser α) : Prop :=
  ∀ ⦃input output : Lexed⦄ ⦃result : α⦄, here input.current.kind →
    parser input = .ok (result, output) → output.tokens.length < input.tokens.length

/-- What a parser takes off the front when it ends well: so many tokens at least, and none of them
is the end of the input.  The input may hold tokens of this kind, and then goes on behind them. -/
def Takes (least : Nat) (parser : Parser α) : Prop :=
  ∀ ⦃input output : Lexed⦄ ⦃result : α⦄, parser input = .ok (result, output) →
    output.ending = input.ending ∧ ∃ taken, input.tokens = taken ++ output.tokens ∧
      least ≤ taken.length ∧ ∀ token ∈ taken, token.kind ≠ .endOfInput

/-- The states of a recursion with fewer tokens. -/
def Fewer (inner outer : ι × Lexed) : Prop :=
  inner.2.tokens.length < outer.2.tokens.length

/-- A recursion goes down to a solution. -/
structure Descends (below : ι × Lexed → ι × Lexed → Prop)
    (layer : (ι → Parser α) → ι → Parser α) (solution : ι → Parser α) : Prop where
  founded : WellFounded below
  determined : ∀ (next : ι → Parser α) (index : ι) (input : Lexed),
    (∀ inner shorter, below (inner, shorter) (index, input) →
      next inner shorter = solution inner shorter) →
    layer next index input = solution index input
  only : ∀ next : ι → Parser α, layer next = next ↔ next = solution

theorem fewer_founded : WellFounded (@Fewer ι) :=
  (measure fun state : ι × Lexed => state.2.tokens.length).wf

/-- It is enough that the results at a state depend on those below. -/
theorem descends_of_determined {below : ι × Lexed → ι × Lexed → Prop}
    {layer : (ι → Parser α) → ι → Parser α} {solution : ι → Parser α}
    (hfounded : WellFounded below)
    (h : ∀ (next : ι → Parser α) (index : ι) (input : Lexed),
      (∀ inner shorter, below (inner, shorter) (index, input) →
        next inner shorter = solution inner shorter) →
      layer next index input = solution index input) : Descends below layer solution where
  founded := hfounded
  determined := h
  only next := by
    constructor
    · intro hnext
      have hstate (state : ι × Lexed) : next state.1 state.2 = solution state.1 state.2 := by
        induction state using hfounded.induction with
        | _ state ih =>
            rw [← hnext]
            exact h next state.1 state.2 fun inner shorter hbelow => ih (inner, shorter) hbelow
      funext index input
      exact hstate (index, input)
    · rintro rfl
      funext index input
      exact h next index input fun _ _ _ => rfl

theorem Takes.shortens {parser : Parser α} (h : Takes 1 parser) (here : TokenKind → Prop) :
    Shortens here parser := by
  intro input output result _ hresult
  obtain ⟨-, taken, htokens, hleast, -⟩ := h hresult
  rw [htokens, List.length_append]
  omega

theorem Composed.steady {parser : Parser α} (h : Composed parser) : Steady parser := by
  induction h with
  | pure value =>
      intro input output result h
      obtain ⟨-, rfl⟩ := pure_eq_ok.mp h
      exact Nat.le_refl _
  | bind _ _ ihfirst ihnext =>
      intro input output result h
      obtain ⟨value, middle, hfirst, hnext⟩ := bind_eq_ok.mp h
      exact Nat.le_trans (ihnext value hnext) (ihfirst hfirst)
  | current =>
      intro input output result h
      obtain ⟨-, rfl⟩ := current_eq_ok.mp h
      exact Nat.le_refl _
  | remaining =>
      intro input output result h
      obtain ⟨-, rfl⟩ := remaining_eq_ok.mp h
      exact Nat.le_refl _
  | fail cause => exact fun _ _ _ h => absurd h fail_ne_ok
  | advance =>
      intro input output result h
      obtain ⟨-, rfl⟩ := advance_eq_ok h
      simp
  | skipNewlines =>
      intro input output result h
      rw [skipNewlines_eq_ok h]
      exact (List.dropWhile_suffix _).length_le

theorem shortens_advance {here : TokenKind → Prop} (hhere : ∀ kind, here kind → kind ≠ .endOfInput) :
    Shortens here advance := by
  intro input output token hkind h
  have hinput := (advance_at h rfl (hhere _ hkind)).2
  rw [hinput]
  exact Nat.lt_succ_self _

/-- On fewer than so many tokens, with a first one as described, two parsers do the same. -/
def Same (here : TokenKind → Prop) (most : Nat) (parser other : Parser α) : Prop :=
  ∀ input : Lexed, input.tokens.length < most → here input.current.kind →
    parser input = other input

variable {here : TokenKind → Prop} {most : Nat}

theorem Same.refl (parser : Parser α) : Same here most parser parser :=
  fun _ _ _ => rfl

theorem Same.fewer {parser other : Parser α} {fewer : Nat} (h : Same Anywhere most parser other)
    (hfewer : fewer ≤ most) : Same here fewer parser other :=
  fun input hinput _ => h input (Nat.lt_of_lt_of_le hinput hfewer) trivial

theorem bind_congr {first first' : Parser α} {next next' : α → Parser β} {input : Lexed}
    (hfirst : first input = first' input)
    (hnext : ∀ value middle, first' input = .ok (value, middle) →
      next value middle = next' value middle) :
    (first >>= next) input = (first' >>= next') input := by
  cases hresult : first' input with
  | error error => rw [bind_apply_error (hfirst.trans hresult), bind_apply_error hresult]
  | ok read =>
      rw [bind_apply_ok (hfirst.trans hresult), bind_apply_ok hresult]
      exact hnext read.1 read.2 hresult

theorem Same.bind {first first' : Parser α} {next next' : α → Parser β}
    (h : Same here most first first') (hsteady : Steady first')
    (hnext : ∀ value, Same Anywhere most (next value) (next' value)) :
    Same here most (first >>= next) (first' >>= next') := by
  intro input hinput hhere
  refine bind_congr (h input hinput hhere) fun value middle hfirst => ?_
  exact hnext value middle (Nat.lt_of_le_of_lt (hsteady hfirst) hinput) trivial

/-- Two parsers that do the same, with the same behind them. -/
theorem Same.before {first first' : Parser α} (h : Same here most first first')
    (next : α → Parser β) : Same here most (first >>= next) (first' >>= next) :=
  fun input hinput hhere => bind_congr (h input hinput hhere) fun _ _ _ => rfl

/-- After a token has been taken there is one less. -/
theorem Same.after {first first' : Parser α} {next next' : α → Parser β}
    (h : Same here (most + 1) first first') (hshortens : Shortens here first')
    (hnext : ∀ value, Same Anywhere most (next value) (next' value)) :
    Same here (most + 1) (first >>= next) (first' >>= next') := by
  intro input hinput hhere
  refine bind_congr (h input hinput hhere) fun value middle hfirst => ?_
  have hmiddle := hshortens hhere hfirst
  exact hnext value middle (by omega) trivial

/-- A parser in front of two others. -/
theorem Composed.same {first : Parser α} {next next' : α → Parser β} (h : Composed first)
    (hnext : ∀ value, Same Anywhere most (next value) (next' value)) :
    Same here most (first >>= next) (first >>= next') :=
  (Same.refl first).bind h.steady hnext

/-- A parser in front of two others that takes a token. -/
theorem Takes.same {first : Parser α} {next next' : α → Parser β} (h : Takes 1 first)
    (hnext : ∀ value, Same Anywhere most (next value) (next' value)) :
    Same here (most + 1) (first >>= next) (first >>= next') :=
  (Same.refl first).after (h.shortens here) hnext

theorem same_advance {kind : TokenKind} {next next' : Token → Parser α}
    (hkind : kind ≠ .endOfInput)
    (hnext : ∀ token, Same Anywhere most (next token) (next' token)) :
    Same (· = kind) (most + 1) (advance >>= next) (advance >>= next') :=
  (Same.refl advance).after (shortens_advance fun _ hhere => hhere ▸ hkind) hnext

theorem same_current {next next' : Token → Parser α}
    (h : ∀ token, Same (· = token.kind) most (next token) (next' token)) :
    Same here most (current >>= next) (current >>= next') :=
  fun input hinput _ => h input.current input hinput rfl

theorem same_isAt {expected : TokenClass} {yes yes' no no' : Parser α}
    (hyes : Same (·.toClass = expected) most yes yes') (hno : Same Anywhere most no no') :
    Same here most (isAt expected >>= fun found => if found then yes else no)
      (isAt expected >>= fun found => if found then yes' else no') := by
  intro input hinput _
  have hfound : isAt expected input = .ok (decide (input.current.toClass = expected), input) := rfl
  rw [bind_apply_ok hfound, bind_apply_ok hfound]
  by_cases hclass : input.current.toClass = expected
  · simp only [hclass, decide_true, if_true]
    exact hyes input hinput hclass
  · simp only [hclass, decide_false, Bool.false_eq_true, if_false]
    exact hno input hinput trivial

theorem same_remaining {next next' : Nat → Parser α}
    (h : ∀ count, Same here most (next count) (next' count)) :
    Same here most (remaining >>= next) (remaining >>= next') :=
  fun input hinput hhere => h input.tokens.length input hinput hhere

/-- A layer asks for the recursive calls at fewer tokens than it has itself. -/
def Guarded (layer : (ι → Parser α) → ι → Parser α) : Prop :=
  ∀ (most : Nat) (next other : ι → Parser α), (∀ index, Composed (other index)) →
    (∀ index, Same Anywhere most (next index) (other index)) →
    ∀ index, Same Anywhere (most + 1) (layer next index) (layer other index)

section

variable {layer : (ι → Parser α) → ι → Parser α} (bounded : Nat → ι → Parser α)
  (hlayer : Guarded layer) (hbounded : ∀ rounds, bounded (rounds + 1) = layer (bounded rounds))
  (hcomposed : ∀ rounds index, Composed (bounded rounds index))

include hlayer hbounded hcomposed

/-- Bounds above the number of tokens all do the same. -/
theorem same_bounded {rounds rounds' : Nat} (hrounds : most ≤ rounds) (hrounds' : most ≤ rounds')
    (index : ι) : Same Anywhere most (bounded rounds index) (bounded rounds' index) := by
  induction most generalizing rounds rounds' index with
  | zero => exact fun input hinput => absurd hinput (Nat.not_lt_zero _)
  | succ most ih =>
      obtain ⟨rounds, rfl⟩ := Nat.exists_eq_add_of_le' hrounds
      obtain ⟨rounds', rfl⟩ := Nat.exists_eq_add_of_le' hrounds'
      rw [← Nat.add_assoc, ← Nat.add_assoc, hbounded, hbounded]
      exact hlayer most _ _ (hcomposed _) (fun index => ih (by omega) (by omega) index) index

section

variable {solution : ι → Parser α}
  (hsolution : ∀ index (input : Lexed),
    solution index input = bounded (input.tokens.length + 1) index input)

include hsolution

theorem same_solution {rounds : Nat} (hrounds : most ≤ rounds) (index : ι) :
    Same Anywhere most (bounded rounds index) (solution index) := by
  intro input hinput _
  rw [hsolution]
  exact same_bounded bounded hlayer hbounded hcomposed (Nat.lt_of_lt_of_le hinput hrounds)
    (Nat.le_refl _) index input (Nat.lt_succ_self _) trivial

/-- A recursion whose bound is above the number of tokens goes down. -/
theorem descends_of_guarded : Descends Fewer layer solution := by
  refine descends_of_determined fewer_founded fun next index input hnext => ?_
  have hinner (inner : ι) :
      Same Anywhere input.tokens.length (next inner) (bounded input.tokens.length inner) := by
    intro shorter hshorter _
    rw [hnext inner shorter hshorter]
    exact (same_solution bounded hlayer hbounded hcomposed hsolution (Nat.le_refl _) inner shorter
      hshorter trivial).symm
  rw [hsolution, hbounded]
  exact hlayer _ next _ (hcomposed _) hinner index input (Nat.lt_succ_self _) trivial

end

theorem same_bounded_at_end
    (hend : ∀ rounds index (input : Lexed), input.tokens = [] →
      bounded rounds index input = bounded 0 index input)
    {rounds rounds' : Nat} (hrounds : most ≤ rounds) (hrounds' : most ≤ rounds') (index : ι) :
    Same Anywhere (most + 1) (bounded rounds index) (bounded rounds' index) := by
  induction most generalizing rounds rounds' index with
  | zero =>
      intro input hinput _
      have hnone : input.tokens = [] := List.length_eq_zero_iff.mp (by omega)
      rw [hend rounds index input hnone, hend rounds' index input hnone]
  | succ most ih =>
      obtain ⟨rounds, rfl⟩ := Nat.exists_eq_add_of_le' hrounds
      obtain ⟨rounds', rfl⟩ := Nat.exists_eq_add_of_le' hrounds'
      rw [← Nat.add_assoc, ← Nat.add_assoc, hbounded, hbounded]
      exact hlayer _ _ _ (hcomposed _) (fun index => ih (by omega) (by omega) index) index

/-- If a bound of zero does for no tokens, then the number of tokens may be the bound. -/
theorem descends_of_guarded_at_end {solution : ι → Parser α}
    (hend : ∀ rounds index (input : Lexed), input.tokens = [] →
      bounded rounds index input = bounded 0 index input)
    (hsolution : ∀ index (input : Lexed),
      solution index input = bounded input.tokens.length index input) :
    Descends Fewer layer solution := by
  refine descends_of_guarded bounded hlayer hbounded hcomposed fun index input => ?_
  rw [hsolution]
  exact same_bounded_at_end bounded hlayer hbounded hcomposed hend (Nat.le_refl _)
    (Nat.le_succ _) index input (Nat.lt_succ_self _) trivial

end

end Parser

end Bhasha
