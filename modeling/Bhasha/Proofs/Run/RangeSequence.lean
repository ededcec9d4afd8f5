import Bhasha.Proofs.Run.Rounds
import Bhasha.Proofs.Run.ScopeDiscipline
import Bhasha.Proofs.Run.Activation

/-!
# The counters of a range are fixed beforehand

A range counts on its own and binds its name to the counter anew in each round.  So its body is
run for the numbers of a sequence that is determined by the first number, the bound and the step
alone, and what a run of the body does to the name or to anything else reaches neither the later
numbers nor how many there are.  Only a run that leaves the loop, or fails, keeps later ones from
being made.
-/

namespace Bhasha

open Action Outcome

/-- The numbers that a range counts through: each is a step on from the one before. -/
def counterAt (first step : Float) : Nat → Float
  | 0 => first
  | round + 1 => counterAt first step round + step

/-- The counters of so many rounds, up to the first one that is not in front of the bound. -/
def counters (first bound step : Float) (rounds : Nat) : List Float :=
  ((List.range rounds).map (counterAt first step)).takeWhile (inRange bound step)

/-- Runs a body for each of some counters, with the name bound to the counter, and then does the
rest.  The next run follows one that ends normally or asks for it; one that breaks or returns is
the last thing that is done. -/
def runEach (name : String) (body rest : Action Flow) : List Float → Action Flow
  | [] => rest
  | count :: counts => do
      define name (.number count)
      match ← body with
      | .normal | .continued _ => runEach name body rest counts
      | .broke _ => return .normal
      | .returned value line => return .returned value line

/-- The body is run for each of some counters, and the next run is to follow in the later state. -/
inductive Passes (name : String) (body : Action Flow) : List Float → Context → Context → Prop where
  | nil {context : Context} : Passes name body [] context context
  | cons {count : Float} {counts : List Float} {flow : Flow} {before middle after : Context} :
      (do define name (.number count); body : Action Flow) before = .ok flow middle →
      flow.afterRound = none → Passes name body counts middle after →
      Passes name body (count :: counts) before after

variable {name : String} {first bound step count : Float} {rounds : Nat}
  {body rest : Action Flow} {before after : Context} {passed : List Float}

theorem counterAt_succ (first step : Float) (round : Nat) :
    counterAt first step (round + 1) = counterAt (first + step) step round := by
  induction round with
  | zero => rfl
  | succ round ih => rw [counterAt, ih, counterAt]

theorem counters_succ (first bound step : Float) (rounds : Nat) :
    counters first bound step (rounds + 1) =
      if inRange bound step first then first :: counters (first + step) bound step rounds
      else [] := by
  have hlater : (List.range rounds).map (counterAt first step ∘ Nat.succ) =
      (List.range rounds).map (counterAt (first + step) step) :=
    List.map_congr_left fun round _ => counterAt_succ first step round
  unfold counters
  rw [List.range_succ_eq_map, List.map_cons, List.map_map, hlater, List.takeWhile_cons]
  rfl

theorem runEach_cons (name : String) (body rest : Action Flow) (count : Float)
    (counts : List Float) :
    runEach name body rest (count :: counts) =
      (do define name (.number count); body : Action Flow) >>=
        nextRound (runEach name body rest counts) := by
  rw [runEach, bind_assoc]
  refine congrArg (define name (.number count) >>= ·) (funext fun _ => ?_)
  refine congrArg (body >>= ·) (funext fun flow => ?_)
  cases flow <;> rfl

/-- What a range does after a run for each of the counters.  If there are fewer than rounds, they
are all of the sequence, and else the fuel is used up. -/
def afterCounters (rounds : Nat) (counts : List Float) : Action Flow := fun context =>
  if counts.length < rounds then .ok .normal context else .outOfFuel

theorem afterCounters_of_lt {counts : List Float} (h : counts.length < rounds) :
    afterCounters rounds counts = pure .normal :=
  funext fun _ => if_pos h

theorem rangeRounds_eq_runEach (name : String) (bound step : Float) (body : Action Flow)
    (rounds : Nat) (first : Float) :
    rangeRounds name bound step body rounds first =
      runEach name body (afterCounters rounds (counters first bound step rounds))
        (counters first bound step rounds) := by
  induction rounds generalizing first with
  | zero => rfl
  | succ rounds ih =>
      rw [rangeRounds_succ, counters_succ]
      by_cases hin : inRange bound step first = true
      · have hrest : afterCounters (rounds + 1)
            (first :: counters (first + step) bound step rounds) =
              afterCounters rounds (counters (first + step) bound step rounds) := by
          funext context
          simp only [afterCounters, List.length_cons, Nat.add_lt_add_iff_right]
        rw [if_pos hin, if_pos hin, runEach_cons, hrest, ih]
      · rw [if_neg hin, if_neg hin]
        rfl

/-- A round begins exactly when runs for some counters have been made, all of which go on, and its
own counter is the one that follows them in the sequence. -/
theorem rangeRound_iff :
    (RangeRound name bound step body rounds first before count after ∧
        inRange bound step count = true) ↔
      ∃ passed, (passed ++ [count]) <+: counters first bound step rounds ∧
        Passes name body passed before after := by
  constructor
  · rintro ⟨hround, hcount⟩
    induction hround with
    | first =>
        refine ⟨[], ?_, .nil⟩
        rw [counters_succ, if_pos hcount]
        exact ⟨_, rfl⟩
    | next hin hflow hnext _ ih =>
        obtain ⟨passed, hpassed, hpasses⟩ := ih hcount
        refine ⟨_ :: passed, ?_, .cons hflow hnext hpasses⟩
        rw [counters_succ, if_pos hin]
        exact List.cons_prefix_cons.mpr ⟨rfl, hpassed⟩
  · rintro ⟨passed, hpassed, hpasses⟩
    induction rounds generalizing first before passed with
    | zero => simp [counters] at hpassed
    | succ rounds ih =>
        rw [counters_succ] at hpassed
        by_cases hin : inRange bound step first = true
        · rw [if_pos hin] at hpassed
          cases hpasses with
          | nil =>
              obtain ⟨rfl, -⟩ := List.cons_prefix_cons.mp hpassed
              exact ⟨.first, hin⟩
          | cons hflow hnext hpasses =>
              obtain ⟨rfl, hrest⟩ := List.cons_prefix_cons.mp hpassed
              obtain ⟨hround, hcount⟩ := ih _ hrest hpasses
              exact ⟨.next hin hflow hnext hround, hcount⟩
        · rw [if_neg hin] at hpassed
          simp at hpassed

/-- The counters are the same for all numbers of rounds that go past the last one. -/
theorem counters_eq_of_end {last : Nat}
    (hin : ∀ round < last, inRange bound step (counterAt first step round) = true)
    (hout : inRange bound step (counterAt first step last) = false) (hlast : last < rounds) :
    counters first bound step rounds = (List.range last).map (counterAt first step) := by
  induction last generalizing first rounds with
  | zero =>
      obtain ⟨rounds, rfl⟩ := Nat.exists_eq_succ_of_ne_zero (Nat.ne_of_gt hlast)
      have hfirst : ¬inRange bound step first = true := by simpa [counterAt] using hout
      rw [counters_succ, if_neg hfirst]
      rfl
  | succ last ih =>
      obtain ⟨rounds, rfl⟩ := Nat.exists_eq_succ_of_ne_zero (Nat.ne_of_gt (Nat.zero_lt_of_lt hlast))
      have hlater : counters (first + step) bound step rounds =
          (List.range last).map (counterAt (first + step) step) := by
        apply ih
        · intro round hround
          rw [← counterAt_succ]
          exact hin (round + 1) (Nat.succ_lt_succ hround)
        · rw [← counterAt_succ]
          exact hout
        · exact Nat.lt_of_succ_lt_succ hlast
      have hfirst : inRange bound step first = true := hin 0 (Nat.succ_pos last)
      rw [counters_succ, if_pos hfirst, hlater, List.range_succ_eq_map, List.map_cons,
        List.map_map]
      refine congrArg (_ :: ·) (List.map_congr_left fun round _ => ?_)
      exact (counterAt_succ first step round).symm

/-- All runs of the body are made in the one scope that the loop has entered. -/
theorem frames_of_passes {fuel : Nat} {block : List Stmt} {context : Context}
    (h : Passes name (execBlock (exec fuel) block) passed context.pushed after) :
    ∃ frame outer, after.scopes.frames = frame :: outer ∧
      outer.map Table.names = context.scopes.names := by
  have hgrows : Grows (fun _ => True) context.pushed after := by
    generalize context.pushed = before at h
    induction h with
    | nil => exact .refl _ _
    | @cons count _ _ before _ _ hflow _ _ ih =>
        have hbody := declares_execBlock_any (declares_eval_exec fuel).2 block
        have hdefine : Keeps (Grows (fun _ => True) before) (fun _ => True) (fun _ => True)
            (define name (.number count)) := keeps_define trivial _
        have hround := hdefine.bind fun _ _ => hbody.keeps before
        exact (hround.of_ok (.refl _ before) hflow).1.trans ih
  obtain ⟨innermost, added, outer, hbefore, hafter, -⟩ := hgrows.names
  obtain ⟨rfl, rfl⟩ := List.cons.inj hbefore
  obtain ⟨frame, rest, hframes, -, hrest⟩ := List.map_eq_cons_iff.mp hafter
  exact ⟨frame, rest, hframes, hrest⟩

/-- A range runs its body for the numbers of a sequence that is fixed when its head has been
evaluated, in one scope, and ends with the first run that breaks, returns or fails, or when there
are no more numbers.  Whatever the runs do, the next one begins, with its name bound to the next
number of the sequence in the scope of the loop, exactly when all runs for the earlier numbers
have been made and have gone on.  Where the sequence ends, more fuel does not change it. -/
theorem range_of_sequence {fuel line : Nat} {head limit : Expr} {stride : Option Expr}
    {block : List Stmt} {start stop width : Float} {second third fourth : Context}
    (hhead : evalNumber (eval fuel) head line before = .ok start second)
    (hlimit : evalNumber (eval fuel) limit line second = .ok stop third)
    (hstride : evalStep (eval fuel) stride line third = .ok width fourth) :
    let counts := counters start stop width fuel
    let body := execBlock (exec fuel) block
    let loop := exec (fuel + 1) (.range name head limit stride block line) before
    loop = withScope (runEach name body (afterCounters fuel counts) counts) fourth ∧
    (∀ last, (∀ round < last, inRange stop width (counterAt start width round) = true) →
      inRange stop width (counterAt start width last) = false → last < fuel →
      loop = withScope
        (runEach name body (pure .normal) ((List.range last).map (counterAt start width)))
        fourth) ∧
    (∀ count begun,
      (RangeRound name stop width body fuel start fourth.pushed count begun ∧
          inRange stop width count = true) ↔
        ∃ passed, (passed ++ [count]) <+: counts ∧ Passes name body passed fourth.pushed begun) ∧
    ∀ passed begun, Passes name body passed fourth.pushed begun →
      ∃ frame outer, begun.scopes.frames = frame :: outer ∧
        outer.map Table.names = fourth.scopes.names ∧
        ∀ value, (begun.bound name value).scopes.frames = frame.insert name value :: outer := by
  intro counts body loop
  have hloop : loop = withScope (runEach name body (afterCounters fuel counts) counts) fourth := by
    rw [← rangeRounds_eq_runEach]
    simp only [loop, exec_succ, execWith, bind_apply, hhead, hlimit, hstride]
    rfl
  refine ⟨hloop, ?_, fun count begun => rangeRound_iff, ?_⟩
  · intro last hin hout hlast
    have hcounts : counts = (List.range last).map (counterAt start width) :=
      counters_eq_of_end hin hout hlast
    have hlength : counts.length < fuel := by
      rwa [hcounts, List.length_map, List.length_range]
    rw [hloop, afterCounters_of_lt hlength, hcounts]
  · intro passed begun hpasses
    obtain ⟨frame, outer, hframes, houter⟩ := frames_of_passes hpasses
    exact ⟨frame, outer, hframes, houter, Scopes.frames_define hframes name⟩

/-- The body rebinds the counter of its range. -/
theorem range_of_sequence_of_rebinding :
    let head : Expr := .literal (.number 0) 1
    let limit : Expr := .literal (.number 2) 1
    let block : List Stmt := [.assign "i" (.literal .null 2) 2]
    let before : Context := { random := .ofSeed 0 }
    evalNumber (eval 4) head 1 before = .ok 0 before ∧
      evalNumber (eval 4) limit 1 before = .ok 2 before ∧
      evalStep (eval 4) none 1 before = .ok 1 before ∧
      exec 5 (.range "i" head limit none block 1) before =
        withScope (runEach "i" (execBlock (exec 4) block)
          (afterCounters 4 (counters 0 2 1 4)) (counters 0 2 1 4)) before :=
  ⟨rfl, rfl, rfl, (range_of_sequence rfl rfl rfl).1⟩

end Bhasha
