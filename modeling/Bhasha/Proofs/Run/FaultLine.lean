import Bhasha.Proofs.Grammar.Lines
import Bhasha.Proofs.Parser.ErrorLine
import Bhasha.Proofs.Parser.StatementSoundness
import Bhasha.Proofs.Run.InStep
import Bhasha.Proofs.Token.Cut
import Bhasha.Run

/-!
# The lines of errors

The lexer counts no more lines than the source text has, the parser takes lines over from the
tokens, and a run takes them over from the program.  That a run invents no line is not shown by
looking at the places where faults arise.  It follows from the fact that a run stays in step with
that of the program with exchanged lines.
-/

namespace Bhasha

open Action Outcome

/-- The lines that a source text has. -/
def IsLineOf (source : String) (line : Nat) : Prop :=
  1 ≤ line ∧ line ≤ 1 + source.toList.count '\n'

namespace Lexer

theorem isLineOf_ofOffset (source : String) (offset : Nat) :
    IsLineOf source (Position.ofOffset source.toList offset).line := by
  have hcount : (source.toList.take offset).count '\n' ≤ source.toList.count '\n' :=
    (List.take_sublist offset source.toList).count_le '\n'
  exact ⟨Nat.le_add_right 1 _, Nat.add_le_add_left hcount 1⟩

theorem isLineOf_report {source : String} {ending : Ending} {lexed : Lexed}
    (h : lexed.ending = ending.report source.toList) : IsLineOf source lexed.lastLine := by
  unfold Lexed.lastLine
  rw [h]
  cases ending with
  | finished => exact isLineOf_ofOffset source _
  | unknown found offset => exact isLineOf_ofOffset source offset
  | unterminated offset => exact ⟨Nat.le_add_right 1 _, Nat.le_refl _⟩

theorem within_lex (source : String) : (lex source).Within (IsLineOf source) := by
  obtain ⟨found, ending, hcut⟩ := exists_cut source.toList 0 (Nat.zero_le _)
  have hlex := lex_of_cut hcut
  refine ⟨⟨Nat.le_refl 1, Nat.le_add_right 1 _⟩, fun token htoken => ?_, ?_⟩
  · rw [hlex] at htoken
    obtain ⟨kind, -, rfl⟩ := List.mem_map.mp htoken
    exact isLineOf_ofOffset source _
  · exact isLineOf_report (congrArg Lexed.ending hlex)

end Lexer

theorem Program.isLineOf_of_parse_error {source : String} {error : ParseError}
    (h : parse source = .error error) : IsLineOf source error.line :=
  Parser.good_line_of_readFront Parser.within_program (Lexer.within_lex source) h

theorem Program.isLineOf_of_mem_lines {source : String} {program : Program}
    (h : parse source = .ok program) : ∀ line ∈ program.lines, IsLineOf source line := by
  obtain ⟨pieces, rest, hlines, hphrases, rfl⟩ := Program.exists_lines_of_parse h
  exact hlines.lines_good hphrases (Lexer.within_lex source).tokens

theorem keepsAlike_eq : KeepsAlike fun _ left right => right = left where
  visible := by
    rintro depth left right rfl name
    rfl
  push := by
    rintro depth left right rfl
    rfl
  pop := by
    rintro depth left right rfl
    rfl
  define := by
    rintro depth left right rfl name value
    rfl
  assign := by
    rintro depth left right rfl name value
    cases hassign : right.assign? name value with
    | none => exact .inl ⟨rfl, rfl⟩
    | some assigned => exact .inr ⟨assigned, assigned, rfl, rfl, rfl⟩

/-- A fault has the line of a node of the program.  Otherwise its line alone could be exchanged
for another one: this leaves the program as it is, so the run ends in the same fault, and yet the
fault would have to change. -/
theorem Program.line_mem_lines {program : Program} {fuel : Nat} {config : Config}
    {random : RandomSource} {raised : Fault} {after : Context}
    (h : program.evaluate fuel { config := config, random := random } = .fault raised after) :
    raised.line ∈ program.lines := by
  apply Decidable.byContradiction
  intro hline
  let label : Nat → Nat := fun line => if line = raised.line then line + 1 else line
  have hsame : program.relabel label = program := by
    apply Stmt.relabelBlock_eq_self
    intro line hmem
    have hne : line ≠ raised.line := fun heq => hline (heq ▸ hmem)
    exact if_neg hne
  have hstart : SideBySide label (fun left right => right = left)
      { config := config, random := random } { config := config, random := random } :=
    ⟨rfl, rfl, rfl, rfl, rfl, rfl, rfl⟩
  have hinStep : InStep label (fun _ left right => right = left) id (program.evaluate fuel)
      ((program.relabel label).evaluate fuel) :=
    inStep_evaluate keepsAlike_eq program fuel
  have hmatches := hinStep 0 _ _ hstart
  rw [hsame, h] at hmatches
  obtain ⟨right, hend, -⟩ := hmatches.of_fault
  have hlabel : raised.line = label raised.line := by
    injection hend with hraised
    exact congrArg Fault.line hraised
  simp [label] at hlabel

/-- A source text that fails does so on a line that it has, and if it fails at run time, on the
line of a statement or of an expression of its program. -/
theorem line_of_failed_run {fuel : Nat} {config : Config} {random : RandomSource}
    {source : String} {error : RunError} (h : run fuel config random source = .failed error) :
    1 ≤ error.line ∧ error.line ≤ 1 + source.toList.count '\n' ∧
      ∀ raised, error = .fault raised →
        ∃ program, Program.parse source = .ok program ∧ raised.line ∈ program.lines := by
  unfold run at h
  cases hparse : Program.parse source with
  | error refused =>
      simp only [hparse, RunResult.failed.injEq] at h
      subst h
      have hline := Program.isLineOf_of_parse_error hparse
      exact ⟨hline.1, hline.2, fun _ hfault => by cases hfault⟩
  | ok program =>
      simp only [hparse] at h
      cases hrun : program.evaluate fuel { config := config, random := random } with
      | fault raised after =>
          simp only [hrun, RunResult.failed.injEq] at h
          subst h
          have hmem := Program.line_mem_lines hrun
          have hline := Program.isLineOf_of_mem_lines hparse _ hmem
          refine ⟨hline.1, hline.2, fun other hfault => ?_⟩
          cases hfault
          exact ⟨program, rfl, hmem⟩
      | ok output after => simp [hrun] at h
      | fatal => simp [hrun] at h
      | outOfFuel => simp [hrun] at h

/-- The error of a run that fails. -/
def RunResult.error? : RunResult → Option RunError
  | failed error => some error
  | finished _ _ | fatal | outOfFuel => none

theorem RunResult.eq_failed_of_error? {result : RunResult} {error : RunError}
    (h : result.error? = some error) : result = .failed error := by
  cases result with
  | failed found => rw [Option.some.inj h]
  | _ => cases h

/-- The fault arises in a function, on a line in front of the one that calls it. -/
theorem line_of_failed_call :
    let source := "kaam f()\x7b\n a = b\x7d\nf()"
    let raised : Fault := ⟨.undefinedVariable "b", 2⟩
    run 10 {} { sample := fun _ => 0 } source = .failed (.fault raised) ∧
      1 ≤ raised.line ∧ raised.line ≤ 1 + source.toList.count '\n' ∧
      ∃ program, Program.parse source = .ok program ∧ raised.line ∈ program.lines := by
  intro source raised
  have herror : (run 10 {} { sample := fun _ => 0 } source).error? = some (.fault raised) := by
    decide +kernel
  have hrun := RunResult.eq_failed_of_error? herror
  obtain ⟨hfirst, hlast, hline⟩ := line_of_failed_run hrun
  exact ⟨hrun, hfirst, hlast, hline raised rfl⟩

end Bhasha
