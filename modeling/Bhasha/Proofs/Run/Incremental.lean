import Bhasha.Proofs.Run.Surplus

/-!
# Running a program in parts

What has been printed is handed over when a program ends well and is pending otherwise.  A program
that is run in two parts, one after the other in the same state, runs the second part with less
pending than a run of the whole.  Nothing in a run looks at what is pending, so both print the
same, and this goes on over any number of programs, whether they end well or in a fault.
-/

namespace Bhasha

open Action

variable {fuel more : Nat} {program first second : Program} {start middle after : Context}
  {output : Array Value} {raised : Fault}

theorem execBlock_append (exec : Executor) (first second : List Stmt) :
    execBlock exec (first ++ second) = execBlock exec first >>= fun flow =>
      match flow with
      | .normal => execBlock exec second
      | flow => pure flow := by
  induction first with
  | nil => rfl
  | cons statement rest ih =>
      rw [List.cons_append, execBlock, execBlock, bind_assoc, ih]
      refine congrArg (exec statement >>= ·) (funext fun flow => ?_)
      cases flow <;> rfl

theorem finish_eq_ok {flow : Flow} :
    flow.finish start = .ok output after ↔
      flow = .normal ∧ output = start.output ∧ after = { start with output := #[] } := by
  cases flow <;> simp [Flow.finish, raise, eq_comm]

theorem Program.evaluate_eq_fault :
    program.evaluate fuel start = .fault raised after ↔
      execBlock (exec fuel) program start = .fault raised after ∨
        ∃ flow last, execBlock (exec fuel) program start = .ok flow last ∧
          flow.finish last = .fault raised after :=
  bind_eq_fault

/-- A program that ends well has executed all its statements. -/
theorem Program.evaluate_eq_ok :
    program.evaluate fuel start = .ok output after ↔
      ∃ last, execBlock (exec fuel) program start = .ok .normal last ∧ output = last.output ∧
        after = { last with output := #[] } := by
  unfold Program.evaluate
  rw [bind_eq_ok]
  constructor
  · rintro ⟨flow, last, hblock, hfinish⟩
    obtain ⟨rfl, houtput, hafter⟩ := finish_eq_ok.mp hfinish
    exact ⟨last, hblock, houtput, hafter⟩
  · rintro ⟨last, hblock, houtput, hafter⟩
    exact ⟨.normal, last, hblock, finish_eq_ok.mpr ⟨rfl, houtput, hafter⟩⟩

theorem Program.evaluate_of_more_fuel {program : Program} {outcome : Outcome (Array Value)}
    (hfuel : fuel ≤ more) (h : program.evaluate fuel start = outcome)
    (hends : outcome ≠ .outOfFuel) : program.evaluate more start = outcome := by
  have hblock : execBlock (exec fuel) program start ≠ .outOfFuel := by
    intro hblock
    unfold Program.evaluate at h
    rw [bind_apply, hblock] at h
    exact hends h.symm
  unfold Program.evaluate at h ⊢
  rwa [bind_apply, execBlock_of_more_fuel hfuel rfl hblock, ← bind_apply]

theorem finish_plus_printed_of_fault {flow : Flow} (printed : Array Value)
    (h : flow.finish start = .fault raised after) :
    flow.finish (start.plus { printed := printed }) =
      .fault raised (after.plus { printed := printed }) := by
  cases flow <;> cases h <;> rfl

theorem evaluate_plus_printed_of_ok (printed : Array Value)
    (h : program.evaluate fuel start = .ok output after) :
    program.evaluate fuel (start.plus { printed := printed }) = .ok (printed ++ output) after := by
  obtain ⟨last, hblock, rfl, rfl⟩ := Program.evaluate_eq_ok.mp h
  have hpending := execBlock_plus_printed fuel program start printed
  rw [hblock] at hpending
  exact Program.evaluate_eq_ok.mpr ⟨last.plus { printed := printed }, hpending, rfl, rfl⟩

theorem evaluate_plus_printed_of_fault (printed : Array Value)
    (h : program.evaluate fuel start = .fault raised after) :
    program.evaluate fuel (start.plus { printed := printed }) =
      .fault raised (after.plus { printed := printed }) := by
  have hpending := execBlock_plus_printed fuel program start printed
  rcases Program.evaluate_eq_fault.mp h with hblock | ⟨flow, last, hblock, hfinish⟩
  · rw [hblock] at hpending
    exact Program.evaluate_eq_fault.mpr (.inl hpending)
  · rw [hblock] at hpending
    exact Program.evaluate_eq_fault.mpr
      (.inr ⟨_, _, hpending, finish_plus_printed_of_fault printed hfinish⟩)

/-- After the first part the whole goes on with what the first part has printed still pending. -/
theorem evaluate_append_of_ok (h : first.evaluate fuel start = .ok output middle) :
    (first ++ second : Program).evaluate fuel start =
      second.evaluate fuel (middle.plus { printed := output }) := by
  obtain ⟨last, hblock, rfl, rfl⟩ := Program.evaluate_eq_ok.mp h
  have hlast : Context.plus { last with output := #[] } { printed := last.output } = last := by
    simp [Context.plus]
  unfold Program.evaluate
  rw [hlast, bind_apply, bind_apply, execBlock_append, bind_apply, hblock]

/-- Nothing of the second part is executed when the first part fails. -/
theorem evaluate_append_of_fault (h : first.evaluate fuel start = .fault raised after) :
    (first ++ second : Program).evaluate fuel start = .fault raised after := by
  unfold Program.evaluate
  rw [bind_apply, execBlock_append, bind_apply]
  rcases Program.evaluate_eq_fault.mp h with hblock | ⟨flow, last, hblock, hfinish⟩
  · rw [hblock]
  · rw [hblock]
    cases flow with
    | normal => cases hfinish
    | _ => exact hfinish

/-- What a program prints in a state, whatever is pending there. -/
def Program.printed (fuel : Nat) (program : Program) (context : Context) : Array Value :=
  match execBlock (exec fuel) program { context with output := #[] } with
  | .ok _ after | .fault _ after => after.output
  | .fatal | .outOfFuel => #[]

/-- Programs are run one after the other in the same state.  Together they print some values, and
some values are handed over. -/
inductive Session : Context → List Program → Array Value → Array Value → Context → Prop where
  | nil {start : Context} : Session start [] #[] #[] start
  | ok {start middle last : Context} {fuel : Nat} {program : Program} {rest : List Program}
      {output printed handed : Array Value} :
      program.evaluate fuel start = .ok output middle → Session middle rest printed handed last →
      Session start (program :: rest) (program.printed fuel start ++ printed) (output ++ handed)
        last
  | fault {start middle last : Context} {fuel : Nat} {program : Program} {rest : List Program}
      {raised : Fault} {printed handed : Array Value} :
      program.evaluate fuel start = .fault raised middle →
      Session middle rest printed handed last →
      Session start (program :: rest) (program.printed fuel start ++ printed) handed last

theorem execBlock_eq_plus_pending (fuel : Nat) (block : List Stmt) (start : Context) :
    execBlock (exec fuel) block start =
      (execBlock (exec fuel) block { start with output := #[] }).plus
        { printed := start.output } := by
  have hstart : Context.plus { start with output := #[] } { printed := start.output } = start := by
    simp [Context.plus]
  rw [← execBlock_plus_printed, hstart]

/-- A program that ends well hands over what was pending and then what it prints. -/
theorem Program.output_of_ok (h : program.evaluate fuel start = .ok output middle) :
    output = start.output ++ program.printed fuel start ∧ middle.output = #[] := by
  obtain ⟨last, hblock, rfl, rfl⟩ := Program.evaluate_eq_ok.mp h
  refine ⟨?_, rfl⟩
  rw [execBlock_eq_plus_pending] at hblock
  unfold Program.printed
  cases hquiet : execBlock (exec fuel) program { start with output := #[] } <;>
    rw [hquiet] at hblock <;> cases hblock
  rfl

/-- A program that fails leaves pending what was pending and then what it has printed. -/
theorem Program.output_of_fault (h : program.evaluate fuel start = .fault raised middle) :
    middle.output = start.output ++ program.printed fuel start := by
  unfold Program.printed
  rcases Program.evaluate_eq_fault.mp h with hblock | ⟨flow, last, hblock, hfinish⟩
  · rw [execBlock_eq_plus_pending] at hblock
    cases hquiet : execBlock (exec fuel) program { start with output := #[] } <;>
      rw [hquiet] at hblock <;> cases hblock
    rfl
  · have hsame : middle = last := by cases flow <;> cases hfinish <;> rfl
    rw [execBlock_eq_plus_pending] at hblock
    cases hquiet : execBlock (exec fuel) program { start with output := #[] } <;>
      rw [hquiet] at hblock <;> cases hblock
    rw [hsame]
    rfl

/-- What is handed over in a session, and then what is still pending, is what was pending at its
start and then all that its programs print. -/
theorem Session.handed_over {programs : List Program} {printed handed : Array Value}
    {last : Context} (h : Session start programs printed handed last) :
    handed ++ last.output = start.output ++ printed := by
  induction h with
  | nil => simp
  | ok hprogram _ ih =>
      obtain ⟨houtput, hmiddle⟩ := Program.output_of_ok hprogram
      rw [Array.append_assoc, ih, hmiddle, houtput, Array.empty_append, Array.append_assoc]
  | fault hprogram _ ih =>
      rw [ih, Program.output_of_fault hprogram, Array.append_assoc]

/-- A program that is run in two parts ends as the whole does, with what it prints divided between
the parts, and in a whole session no printed value is lost, repeated or moved. -/
theorem evaluate_in_parts (first second : Program) (fuel fuel' more : Nat) (hfuel : fuel ≤ more)
    (hfuel' : fuel' ≤ more) (start : Context) :
    (∀ output middle, first.evaluate fuel start = .ok output middle →
      (∀ later after, second.evaluate fuel' middle = .ok later after →
        (first ++ second : Program).evaluate more start = .ok (output ++ later) after) ∧
      (∀ raised after, second.evaluate fuel' middle = .fault raised after →
        (first ++ second : Program).evaluate more start =
          .fault raised { after with output := output ++ after.output })) ∧
    (∀ raised after, first.evaluate fuel start = .fault raised after →
      (first ++ second : Program).evaluate more start = .fault raised after) ∧
    ∀ programs printed handed last, Session start programs printed handed last →
      handed ++ last.output = start.output ++ printed := by
  refine ⟨fun output middle hfirst => ?_, fun raised after hfirst => ?_, ?_⟩
  · have hwhole : (first ++ second : Program).evaluate more start =
        second.evaluate more (middle.plus { printed := output }) :=
      evaluate_append_of_ok (Program.evaluate_of_more_fuel hfuel hfirst nofun)
    constructor
    · intro later after hsecond
      rw [hwhole]
      exact evaluate_plus_printed_of_ok output
        (Program.evaluate_of_more_fuel hfuel' hsecond nofun)
    · intro raised after hsecond
      rw [hwhole]
      exact evaluate_plus_printed_of_fault output
        (Program.evaluate_of_more_fuel hfuel' hsecond nofun)
  · exact evaluate_append_of_fault (Program.evaluate_of_more_fuel hfuel hfirst nofun)
  · exact fun _ _ _ _ hsession => hsession.handed_over

/-- A value is pending, the second part ends in a fault, and the session goes on behind it. -/
theorem evaluate_in_parts_before_fault :
    let start : Context := { output := #[.null], random := { sample := fun _ => 0 } }
    let first : Program := [.print (.literal (.text "a") 1) 1]
    let second : Program := [.print (.literal (.text "b") 1) 1, .leave 2]
    let leaving : Fault := ⟨.breakOutsideLoop, 2⟩
    (first ++ first : Program).evaluate 2 start =
        .ok #[.null, .text "a", .text "a"] { start with output := #[] } ∧
      (first ++ second : Program).evaluate 2 start =
        .fault leaving { start with output := #[.null, .text "a", .text "b"] } ∧
      (second ++ first : Program).evaluate 2 start =
        .fault leaving { start with output := #[.null, .text "b"] } ∧
      ∃ printed handed last, Session start [second, first] printed handed last ∧
        handed ++ last.output = start.output ++ printed := by
  intro start first second leaving
  have hfirst := evaluate_in_parts first first 2 2 2 (Nat.le_refl 2) (Nat.le_refl 2) start
  have hsecond := evaluate_in_parts first second 2 2 2 (Nat.le_refl 2) (Nat.le_refl 2) start
  have hfails := evaluate_in_parts second first 2 2 2 (Nat.le_refl 2) (Nat.le_refl 2) start
  have hleft : second.evaluate 2 start =
      .fault leaving { start with output := #[.null, .text "b"] } := rfl
  have hnext : first.evaluate 2 { start with output := #[.null, .text "b"] } =
      .ok #[.null, .text "b", .text "a"] { start with output := #[] } := rfl
  have hsession : Session start [second, first] _ _ _ := .fault hleft (.ok hnext .nil)
  exact ⟨(hfirst.1 _ _ rfl).1 _ _ rfl, (hsecond.1 _ _ rfl).2 _ _ rfl, hfails.2.1 _ _ hleft,
    _, _, _, hsession, hfails.2.2 _ _ _ _ hsession⟩

end Bhasha
