import Bhasha.Eval

/-!
# Loops as sequences of actions

A loop with rounds left is a sequence of actions: its condition, its body, and what follows the
round.  So what is known of sequences gives what a proof by induction on the rounds needs.
-/

namespace Bhasha

open Action

/-- What follows a round of a loop, given what the next round does. -/
def nextRound (next : Action Flow) (flow : Flow) : Action Flow :=
  match flow.afterRound with
  | none => next
  | some last => pure last

theorem whileRounds_succ (condition : Action Value) (body : Action Flow) (rounds : Nat) :
    whileRounds condition body (rounds + 1) = condition >>= fun value =>
      if value.truthy then body >>= nextRound (whileRounds condition body rounds)
      else pure .normal := by
  funext context
  rw [whileRounds, bind_apply]
  cases condition context with
  | ok value middle =>
      by_cases htruthy : value.truthy = true
      · simp only [htruthy, if_true, bind_apply, nextRound]
        cases body middle with
        | ok flow after =>
            simp only
            cases flow.afterRound <;> rfl
        | _ => rfl
      · simp only [htruthy]
        rfl
  | _ => rfl

theorem rangeRounds_succ (name : String) (bound step : Float) (body : Action Flow) (rounds : Nat)
    (counter : Float) :
    rangeRounds name bound step body (rounds + 1) counter =
      if inRange bound step counter then
        (do define name (.number counter); body : Action Flow) >>=
          nextRound (rangeRounds name bound step body rounds (counter + step))
      else pure .normal := by
  funext context
  rw [rangeRounds]
  by_cases hin : inRange bound step counter = true
  · simp only [hin, if_true]
    generalize (do define name (.number counter); body : Action Flow) = round
    rw [bind_apply]
    cases round context with
    | ok flow after =>
        simp only [nextRound]
        cases flow.afterRound <;> rfl
    | _ => rfl
  · simp only [hin]
    rfl

end Bhasha
