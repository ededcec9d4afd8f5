import Bhasha.Proofs.Run.Control
import Bhasha.Proofs.Run.Surplus
import Bhasha.Proofs.Token.Cut
import Bhasha.Run

/-!
# Raising the limit of calls

Where no call is refused, a run does not notice that more calls would be allowed.  A call that is
refused in an attempt goes unnoticed from outside, so it does not do to look at the end of the
run, unless the program has no attempts.
-/

namespace Bhasha

open Action

variable {program : Program} {fuel calls : Nat} {start : Context} {lower upper : Nat}
  {random : RandomSource} {source : String}

theorem finish_plus_calls (flow : Flow) (calls : Nat) (start : Context) :
    flow.finish (start.plus { calls := calls }) =
      (flow.finish start).plus { calls := calls } := by
  cases flow <;> simp [Flow.finish, raise, Outcome.plus, Context.plus]

/-- The run goes on alike if neither a handler takes a refused call nor the run ends in one. -/
theorem evaluate_plus_calls
    (hhandled : ∀ raised, program.Handles fuel start raised → ∀ limit,
      raised.cause ≠ .callDepthExceeded limit)
    (hends : ∀ raised after, program.evaluate fuel start = .fault raised after → ∀ limit,
      raised.cause ≠ .callDepthExceeded limit) :
    program.evaluate fuel (start.plus { calls := calls }) =
      (program.evaluate fuel start).plus { calls := calls } := by
  have hblock : Follows { calls := calls } (execBlock (exec fuel) program)
      (execBlock (exec fuel) program) start := by
    refine Program.follows program fun raised hraised haverts => ?_
    obtain ⟨-, limit, hcause⟩ := haverts
    exact hhandled raised hraised limit hcause
  cases hblock with
  | outOfFuel _ hmore => exact absurd hmore (Nat.lt_irrefl 0)
  | @averted raised after hfault haverts =>
      obtain ⟨-, limit, hcause⟩ := haverts
      have hevaluate : program.evaluate fuel start = .fault raised after := by
        unfold Program.evaluate
        rw [bind_apply, hfault]
      exact absurd hcause (hends raised after hevaluate limit)
  | same hsame =>
      unfold Program.evaluate
      rw [bind_apply, bind_apply, hsame]
      cases execBlock (exec fuel) program start with
      | ok flow after => exact finish_plus_calls flow calls after
      | _ => rfl

theorem plus_calls_of_le (hle : lower ≤ upper) :
    Context.plus { config := ⟨lower⟩, random := random } { calls := upper - lower } =
      { config := ⟨upper⟩, random := random } := by
  simp [Context.plus, Nat.add_sub_cancel' hle]

theorem run_of_plus_calls (hle : lower ≤ upper) (hparse : Program.parse source = .ok program)
    (h : program.evaluate fuel (Context.plus { config := ⟨lower⟩, random := random }
        { calls := upper - lower }) =
      (program.evaluate fuel { config := ⟨lower⟩, random := random }).plus
        { calls := upper - lower }) :
    run fuel ⟨upper⟩ random source = run fuel ⟨lower⟩ random source := by
  rw [plus_calls_of_le hle] at h
  unfold run
  simp only [hparse, h]
  cases program.evaluate fuel { config := ⟨lower⟩, random := random } <;> rfl

/-- A program without attempts has no handlers. -/
theorem not_handles_of_no_attempt {raised : Fault}
    (hattempts : ∀ body errorName handler line,
      ¬Occurs Anywhere (.attempt body errorName handler line) program) :
    ¬program.Handles fuel { config := ⟨lower⟩, random := random } raised := by
  rintro ⟨bodies, left, body, errorName, handler, line, before, after, hexecutes, -⟩
  have hstart : KnownFunctions program { config := ⟨lower⟩, random := random } := by
    intro name function hget
    cases hget
  exact hattempts body errorName handler line (controlled_executes hexecutes hstart).1

/-- A call is refused in the run of a source text, whether or not the fault is handled. -/
def RefusesCall (fuel : Nat) (config : Config) (random : RandomSource) (source : String) : Prop :=
  ∃ program limit line, Program.parse source = .ok program ∧
    program.Raises fuel { config := config, random := random } ⟨.callDepthExceeded limit, line⟩

/-- A run in which no call is refused is the same under any higher limit.  For a program without
attempts it is enough that the run does not end with a refused call. -/
theorem run_of_raised_limit (hle : lower ≤ upper) (fuel : Nat) (random : RandomSource)
    (source : String) :
    (¬RefusesCall fuel ⟨lower⟩ random source →
      run fuel ⟨upper⟩ random source = run fuel ⟨lower⟩ random source) ∧
    ∀ program, Program.parse source = .ok program →
      (∀ body errorName handler line,
        ¬Occurs Anywhere (.attempt body errorName handler line) program) →
      (∀ limit line,
        run fuel ⟨lower⟩ random source ≠ .failed (.fault ⟨.callDepthExceeded limit, line⟩)) →
      run fuel ⟨upper⟩ random source = run fuel ⟨lower⟩ random source := by
  constructor
  · intro hnone
    cases hparse : Program.parse source with
    | error error => simp only [run, hparse]
    | ok program =>
        have hraises : ∀ raised,
            program.Raises fuel { config := ⟨lower⟩, random := random } raised →
              ∀ limit, raised.cause ≠ .callDepthExceeded limit := by
          rintro ⟨cause, line⟩ hraised limit rfl
          exact hnone ⟨program, limit, line, hparse, hraised⟩
        refine run_of_plus_calls hle hparse (evaluate_plus_calls ?_ ?_)
        · rintro raised ⟨bodies, left, body, errorName, handler, line, before, after, hexecutes,
            hfault⟩
          exact hraises raised (Program.raises_of_handled hexecutes hfault)
        · exact fun raised after hends => hraises raised (.inl ⟨after, hends⟩)
  · intro program hparse hattempts hend
    refine run_of_plus_calls hle hparse (evaluate_plus_calls ?_ ?_)
    · exact fun raised hhandles => absurd hhandles (not_handles_of_no_attempt hattempts)
    · rintro ⟨cause, line⟩ after hends limit rfl
      exact hend limit line (by simp only [run, hparse, hends])

/-- One call is allowed and one is made. -/
theorem run_of_raised_limit_by_one :
    let source := "kaam f() \x7b\x7d\nf()"
    let random : RandomSource := { sample := fun _ => 0 }
    1 ≤ 2 ∧ ¬RefusesCall 3 ⟨1⟩ random source ∧
      run 3 ⟨2⟩ random source = run 3 ⟨1⟩ random source := by
  intro source random
  have hlex : Lexer.lex source =
      ⟨[⟨.keyword .kaam, ⟨1, 1⟩⟩, ⟨.word "f", ⟨1, 6⟩⟩, ⟨.symbol .leftParen, ⟨1, 7⟩⟩,
        ⟨.symbol .rightParen, ⟨1, 8⟩⟩, ⟨.symbol .leftBrace, ⟨1, 10⟩⟩,
        ⟨.symbol .rightBrace, ⟨1, 11⟩⟩, ⟨.newline, ⟨1, 12⟩⟩, ⟨.word "f", ⟨2, 1⟩⟩,
        ⟨.symbol .leftParen, ⟨2, 2⟩⟩, ⟨.symbol .rightParen, ⟨2, 3⟩⟩], .ok ⟨2, 4⟩⟩ :=
    Lexed.eq_of_tokens (by decide +kernel) (by decide +kernel)
  have hparse : Program.parse source =
      .ok [.define "f" [] [] 1, .expression (.call "f" [] 2) 2] := by
    unfold Program.parse Parser.readFront
    rw [hlex]
    rfl
  have hspared : ¬RefusesCall 3 ⟨1⟩ random source := by
    rintro ⟨program, limit, line, hprogram, hraises⟩
    cases hparse.symm.trans hprogram
    rcases hraises with ⟨after, hfault⟩ | ⟨bodies, fuel, task, context, after, hexecutes, hfault⟩
    · cases hfault
    · obtain ⟨first, before, hturn, hleads⟩ := hexecutes
      cases hturn with
      | first =>
          cases hleads with
          | refl => cases hfault
          | needs hneeds => cases hneeds with
            | value _ hturn => cases hturn
          | enters henters => cases henters
      | later hdefine hturn =>
          cases hdefine
          cases hturn with
          | later _ hturn => cases hturn
          | first =>
            cases hleads with
            | refl => cases hfault
            | enters henters => cases henters
            | needs hneeds hleads => cases hneeds with
              | value _ hturn => cases hturn with
                | later _ hturn => cases hturn
                | first =>
                  cases hleads with
                  | refl => cases hfault
                  | needs hneeds => cases hneeds with
                    | operand _ hturn => cases hturn
                  | enters henters => cases henters with
                    | body _ hfunction _ _ _ _ hturn =>
                      cases hfunction
                      cases hturn
  exact ⟨by decide, hspared, (run_of_raised_limit (by decide) 3 random source).1 hspared⟩

end Bhasha
