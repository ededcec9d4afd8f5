import Bhasha.Proofs.Parser.InAttempt
import Bhasha.Proofs.Run.FaultLine
import Bhasha.Proofs.Run.Incremental

/-!
# Running a source text in an attempt

An attempt makes no scope for its body and takes nothing but faults.  So a program that is put
into an attempt does what it does alone, and where it fails, the handler finds what has been
printed so far and a message that does not depend on lines.  A statement that hands over control
is not a fault, and goes past the handler.
-/

namespace Bhasha

open Action Outcome

variable {program : Program} {fuel more line : Nat} {start after : Context} {flow : Flow}
  {raised : Fault} {source : String}

/-- A statement that hands over control, and that no loop or function takes, ends the program. -/
def Program.HandsOver (fuel : Nat) (program : Program) (start : Context) : Prop :=
  ∃ flow after, execBlock (exec fuel) program start = .ok flow after ∧ flow ≠ .normal

section

variable {body handler : List Stmt} {errorName : String}

theorem execBlock_singleton (exec : Executor) (statement : Stmt) :
    execBlock exec [statement] = exec statement := by
  rw [execBlock]
  refine (congrArg (exec statement >>= ·) (funext fun flow => ?_)).trans (bind_pure _)
  cases flow <;> rfl

theorem exec_attempt_of_ok (h : execBlock (exec fuel) body start = .ok flow after) :
    exec (fuel + 1) (.attempt body errorName handler line) start = .ok flow after := by
  rw [exec, execWith, handling, h]

theorem exec_attempt_of_fault (h : execBlock (exec fuel) body start = .fault raised after) :
    exec (fuel + 1) (.attempt body errorName handler line) start =
      withScope (do define errorName (.text raised.message); execBlock (exec fuel) handler)
        after := by
  rw [exec, execWith, handling, h]

/-- A handler that prints the fault leaves everything else as it is. -/
theorem withScope_print_name (name : String) (value : Value) (fuel line : Nat) (start : Context) :
    withScope
        (do define name value; execBlock (exec (fuel + 2)) [.print (.var name line) line]) start =
      .ok .normal { start with output := start.output.push value } := by
  have hvar {context : Context} (hname : context.scopes.get? name = some value) :
      eval (fuel + 1) (.var name line) context = .ok value context := by
    rw [eval, evalWith, lookup, hname]
  have hprint {context : Context} (hname : context.scopes.get? name = some value) :
      exec (fuel + 2) (.print (.var name line) line) context =
        .ok .normal { context with output := context.output.push value } := by
    rw [exec, execWith, bind_apply, hvar hname]
    rfl
  let inner : Context := { start with scopes := start.scopes.push.define name value }
  have hinner : (do define name value; exec (fuel + 2) (.print (.var name line) line) : Action Flow)
      { start with scopes := start.scopes.push } =
        .ok .normal { inner with output := inner.output.push value } :=
    hprint (by simp [Scopes.get?_define])
  unfold withScope
  rw [execBlock_singleton, hinner]
  rfl

theorem evaluate_attempt_of_ok (hfuel : fuel + 3 ≤ more)
    (h : execBlock (exec fuel) body start = .ok flow after) :
    Program.evaluate more [.attempt body errorName handler line] start = flow.finish after := by
  obtain ⟨further, rfl⟩ := Nat.exists_eq_add_of_le' hfuel
  have hbody : execBlock (exec (further + fuel + 2)) body start = .ok flow after :=
    execBlock_of_more_fuel (by omega) h nofun
  unfold Program.evaluate
  rw [bind_apply, execBlock_singleton, ← Nat.add_assoc, exec_attempt_of_ok hbody]

theorem evaluate_attempt_of_fault (hfuel : fuel + 3 ≤ more)
    (h : execBlock (exec fuel) body start = .fault raised after) (below : Nat) :
    Program.evaluate more [.attempt body errorName [.print (.var errorName below) below] line]
        start =
      .ok (after.output.push (.text raised.message)) { after with output := #[] } := by
  obtain ⟨further, rfl⟩ := Nat.exists_eq_add_of_le' hfuel
  have hbody : execBlock (exec (further + fuel + 2)) body start = .fault raised after :=
    execBlock_of_more_fuel (by omega) h nofun
  unfold Program.evaluate
  rw [bind_apply, execBlock_singleton, ← Nat.add_assoc, exec_attempt_of_fault hbody,
    withScope_print_name]
  rfl

end

section

variable {config : Config} {random : RandomSource} {last : Context} {output : Array Value}

/-- The run of a program and that of the program with other lines. -/
theorem Program.matches_relabel (label : Nat → Nat) (program : Program) (fuel : Nat)
    (config : Config) (random : RandomSource) :
    (execBlock (exec fuel) program { config := config, random := random }).Matches label
      (fun left right => right = left) (·.relabel label)
      (execBlock (exec fuel) (program.relabel label) { config := config, random := random }) := by
  have hinStep : InStep label (fun _ left right => right = left) (·.relabel label)
      (execBlock (exec fuel) program) (execBlock (exec fuel) (program.relabel label)) :=
    inStep_execBlock (inStep_eval_exec keepsAlike_eq fuel).2 program
  exact hinStep 0 _ _ ⟨rfl, rfl, rfl, rfl, rfl, rfl, rfl⟩

theorem Program.evaluate_inAttempt_of_ok (line : Nat) (hfuel : fuel + 3 ≤ more)
    (h : program.evaluate fuel { config := config, random := random } = .ok output last) :
    ∃ other, (program.inAttempt line).evaluate more { config := config, random := random } =
        .ok output other ∧
      other.store = last.store := by
  obtain ⟨after, hblock, rfl, rfl⟩ := Program.evaluate_eq_ok.mp h
  have hmatches := program.matches_relabel (· + 1) fuel config random
  rw [hblock] at hmatches
  obtain ⟨right, hright, hend⟩ := hmatches.of_ok
  refine ⟨{ right with output := #[] }, ?_, hend.store⟩
  rw [← hend.output]
  exact evaluate_attempt_of_ok hfuel hright

theorem Program.HandsOver.evaluate_inAttempt (line : Nat) (hfuel : fuel + 3 ≤ more)
    (hflow : program.HandsOver fuel { config := config, random := random })
    (h : program.evaluate fuel { config := config, random := random } = .fault raised last) :
    ∃ other, (program.inAttempt line).evaluate more { config := config, random := random } =
      .fault ⟨raised.cause, raised.line + 1⟩ other := by
  -- The attempt lets the flow through, and the program ends in it on either side.
  obtain ⟨flow, after, hblock, -⟩ := hflow
  have hmatches := program.matches_relabel (· + 1) fuel config random
  rw [hblock] at hmatches
  obtain ⟨right, hright, -⟩ := hmatches.of_ok
  unfold Program.evaluate at h
  rw [bind_apply, hblock] at h
  have hattempt : (program.inAttempt line).evaluate more { config := config, random := random } =
      (flow.relabel (· + 1)).finish right :=
    evaluate_attempt_of_ok hfuel hright
  rw [hattempt]
  cases flow <;> cases h <;> exact ⟨right, rfl⟩

theorem Program.evaluate_inAttempt_of_fault (line : Nat) (hfuel : fuel + 3 ≤ more)
    (hflow : ¬program.HandsOver fuel { config := config, random := random })
    (h : program.evaluate fuel { config := config, random := random } = .fault raised last) :
    ∃ other, (program.inAttempt line).evaluate more { config := config, random := random } =
        .ok (last.output.push (.text raised.message)) other ∧
      other.store = last.store := by
  rcases Program.evaluate_eq_fault.mp h with hblock | ⟨flow, after, hblock, hfinish⟩
  · have hmatches := program.matches_relabel (· + 1) fuel config random
    rw [hblock] at hmatches
    obtain ⟨right, hright, hend⟩ := hmatches.of_fault
    refine ⟨{ right with output := #[] }, ?_, hend.store⟩
    rw [← hend.output, ← raised.message_relabel (· + 1)]
    exact evaluate_attempt_of_fault hfuel hright line
  · refine absurd ⟨flow, after, hblock, ?_⟩ hflow
    rintro rfl
    cases hfinish

theorem run_eq_finished (hparse : Program.parse source = .ok program) {store : Store} :
    run fuel config random source = .finished output store ↔
      ∃ last, program.evaluate fuel { config := config, random := random } = .ok output last ∧
        last.store = store := by
  unfold run
  simp only [hparse]
  cases program.evaluate fuel { config := config, random := random } <;> simp

theorem run_eq_fault (hparse : Program.parse source = .ok program) :
    run fuel config random source = .failed (.fault raised) ↔
      ∃ last, program.evaluate fuel { config := config, random := random } =
        .fault raised last := by
  unfold run
  simp only [hparse]
  cases program.evaluate fuel { config := config, random := random } <;> simp

end

/-- A source text in an attempt has the output that it has alone.  Where it fails by handing over
control, it still does, one line further down, and where it fails otherwise, its output up to there
is kept, and the message of the fault is printed behind it. -/
theorem run_inAttempt (hparse : Program.parse source = .ok program) (hfuel : fuel + 3 ≤ more)
    (config : Config) (random : RandomSource) :
    (∃ line, Program.parse (inAttempt source) = .ok (program.inAttempt line)) ∧
    (∀ output store, run fuel config random source = .finished output store →
      run more config random (inAttempt source) = .finished output store) ∧
    ∀ raised, run fuel config random source = .failed (.fault raised) →
      let start : Context := { config := config, random := random }
      (program.HandsOver fuel start →
        run more config random (inAttempt source) =
          .failed (.fault ⟨raised.cause, raised.line + 1⟩)) ∧
      (¬program.HandsOver fuel start →
        ∃ last, program.evaluate fuel start = .fault raised last ∧
          run more config random (inAttempt source) =
            .finished (last.output.push (.text raised.message)) last.store) := by
  obtain ⟨line, hattempt⟩ := Program.parse_inAttempt hparse
  refine ⟨⟨line, hattempt⟩, ?_, ?_⟩
  · intro output store hrun
    obtain ⟨last, hevaluate, rfl⟩ := (run_eq_finished hparse).mp hrun
    obtain ⟨other, hother, hstore⟩ := Program.evaluate_inAttempt_of_ok line hfuel hevaluate
    exact (run_eq_finished hattempt).mpr ⟨other, hother, hstore⟩
  · intro raised hrun start
    obtain ⟨last, hevaluate⟩ := (run_eq_fault hparse).mp hrun
    constructor
    · intro hflow
      exact (run_eq_fault hattempt).mpr (hflow.evaluate_inAttempt line hfuel hevaluate)
    · intro hflow
      obtain ⟨other, hother, hstore⟩ :=
        Program.evaluate_inAttempt_of_fault line hfuel hflow hevaluate
      exact ⟨last, hevaluate, (run_eq_finished hattempt).mpr ⟨other, hother, hstore⟩⟩

/-- A value is printed, and then a function is called that is not defined. -/
theorem run_inAttempt_of_undefined_function :
    let source := "sathi bhana(khali)\nb()"
    let program : Program :=
      [.print (.literal .null 1) 1, .expression (.call "b" [] 2) 2]
    let random : RandomSource := { sample := fun _ => 0 }
    Program.parse source = .ok program ∧ 2 + 3 ≤ 5 ∧
      run 2 {} random source = .failed (.fault ⟨.undefinedFunction "b", 2⟩) ∧
      run 5 {} random (inAttempt source) =
        .finished #[.null, .text "Undefined function: b"] .empty := by
  intro source program random
  have hlex : Lexer.lex source =
      ⟨[⟨.keyword .sathi, ⟨1, 1⟩⟩, ⟨.keyword .bhana, ⟨1, 7⟩⟩, ⟨.symbol .leftParen, ⟨1, 12⟩⟩,
        ⟨.keyword .khali, ⟨1, 13⟩⟩, ⟨.symbol .rightParen, ⟨1, 18⟩⟩, ⟨.newline, ⟨1, 19⟩⟩,
        ⟨.word "b", ⟨2, 1⟩⟩, ⟨.symbol .leftParen, ⟨2, 2⟩⟩, ⟨.symbol .rightParen, ⟨2, 3⟩⟩],
        .ok ⟨2, 4⟩⟩ :=
    Lexed.eq_of_tokens (by decide +kernel) (by decide +kernel)
  have hparse : Program.parse source = .ok program := by
    unfold Program.parse Parser.readFront
    rw [hlex]
    rfl
  have hrun : run 2 {} random source = .failed (.fault ⟨.undefinedFunction "b", 2⟩) := by
    unfold run
    rw [hparse]
    rfl
  have hflow : ¬program.HandsOver 2 { config := {}, random := random } := by
    rintro ⟨flow, after, hblock, -⟩
    cases hblock
  have hattempt := run_inAttempt hparse (by decide : 2 + 3 ≤ 5) {} random
  obtain ⟨last, hevaluate, hprinted⟩ := (hattempt.2.2 _ hrun).2 hflow
  cases hevaluate
  exact ⟨hparse, by decide, hrun, hprinted⟩

end Bhasha
