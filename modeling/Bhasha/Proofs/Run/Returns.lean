import Bhasha.Proofs.Run.Assigned

/-!
# Where a returned value comes from

A value that is on its way out of a function has been given by the expression of a return.  The
return is executed inside the statement that hands over control with the value, and in the same
function body.  No loop, no handler and no block changes the value or a container on its way.
-/

namespace Bhasha

open Action

/-- A return that is executed in the block, and in no function body that is opened there, has
evaluated its expression to the value, and has left the store. -/
def ReturnedIn (fuel : Nat) (block : List Stmt) (before : Context) (value : Value) (store : Store) :
    Prop :=
  ∃ first middle less expr line begun ended,
    InTurn fuel (block.map .exec) before first middle ∧
    Leads fuel first middle 0 (less + 1) (.exec (.giveBack (some expr) line)) begun ∧
    eval less expr begun = .ok value ended ∧ ended.store = store

variable {fuel line : Nat} {value : Value} {address : Address} {before after : Context}

theorem exists_returned_of_execBlock {block : List Stmt}
    (h : execBlock (exec fuel) block before = .ok (.returned value line) after) :
    ∃ statement begun, InTurn fuel (block.map .exec) before (.exec statement) begun ∧
      exec fuel statement begun = .ok (.returned value line) after := by
  induction block generalizing before with
  | nil => cases h
  | cons statement rest ih =>
      obtain ⟨flow, middle, hflow, hrest⟩ := bind_eq_ok.mp h
      cases flow with
      | normal =>
          obtain ⟨next, begun, hturn, hreturned⟩ := ih hrest
          exact ⟨next, begun, .later hflow hturn, hreturned⟩
      | returned found foundLine =>
          cases hrest
          exact ⟨statement, before, .first, hflow⟩
      | _ => cases hrest

theorem exists_returned_of_whileRounds {condition : Action Value} {body : Action Flow}
    {rounds : Nat}
    (h : whileRounds condition body rounds before = .ok (.returned value line) after) :
    ∃ start found middle, WhileRound condition body rounds before start ∧
      condition start = .ok found middle ∧ found.truthy = true ∧
      body middle = .ok (.returned value line) after := by
  induction rounds generalizing before with
  | zero => cases h
  | succ rounds ih =>
      rw [whileRounds_succ] at h
      obtain ⟨found, middle, hfound, hround⟩ := bind_eq_ok.mp h
      by_cases htruthy : found.truthy = true
      · rw [if_pos htruthy] at hround
        obtain ⟨flow, last, hflow, hnext⟩ := bind_eq_ok.mp hround
        unfold nextRound at hnext
        cases hlast : flow.afterRound with
        | none =>
            rw [hlast] at hnext
            obtain ⟨start, other, inner, hrounds, hreturned⟩ := ih hnext
            exact ⟨start, other, inner, .next hfound htruthy hflow hlast hrounds, hreturned⟩
        | some ending =>
            rw [hlast] at hnext
            cases hnext
            cases flow <;> cases hlast
            exact ⟨before, found, middle, .first, hfound, htruthy, hflow⟩
      · rw [if_neg htruthy] at hround
        cases hround

theorem exists_returned_of_rangeRounds {name : String} {bound step : Float} {body : Action Flow}
    {rounds : Nat} {counter : Float}
    (h : rangeRounds name bound step body rounds counter before =
      .ok (.returned value line) after) :
    ∃ count last, RangeRound name bound step body rounds counter before count last ∧
      inRange bound step count = true ∧
      body (last.bound name (.number count)) = .ok (.returned value line) after := by
  induction rounds generalizing before counter with
  | zero => cases h
  | succ rounds ih =>
      rw [rangeRounds_succ] at h
      by_cases hin : inRange bound step counter = true
      · rw [if_pos hin] at h
        obtain ⟨flow, last, hflow, hnext⟩ := bind_eq_ok.mp h
        unfold nextRound at hnext
        cases hlast : flow.afterRound with
        | none =>
            rw [hlast] at hnext
            obtain ⟨count, start, hrounds, hreturned⟩ := ih hnext
            exact ⟨count, start, .next hin hflow hlast hrounds, hreturned⟩
        | some ending =>
            rw [hlast] at hnext
            cases hnext
            cases flow <;> cases hlast
            exact ⟨counter, before, .first, hin, hflow⟩
      · rw [if_neg hin] at h
        cases h

/-- A statement that hands over control with a value is a return, or it has it from a statement in
it. -/
theorem needs_of_returned {statement : Stmt}
    (h : exec (fuel + 1) statement before = .ok (.returned value line) after) :
    (∃ given, statement = .giveBack given line ∧
      evalReturned (eval fuel) given before = .ok value after) ∨
    ∃ next begun ended, Needs fuel (.exec statement) before (.exec next) begun ∧
      exec fuel next begun = .ok (.returned value line) ended ∧ ended.store = after.store := by
  cases statement with
  | declare name expr line =>
      obtain ⟨_, _, -, hrest⟩ := bind_eq_ok.mp h
      cases hrest
  | print expr line =>
      obtain ⟨_, _, -, hrest⟩ := bind_eq_ok.mp h
      cases hrest
  | assign name expr line =>
      obtain ⟨_, _, -, hrest⟩ := bind_eq_ok.mp h
      obtain ⟨_, _, -, hlast⟩ := bind_eq_ok.mp hrest
      cases hlast
  | assignIndex name position expr line =>
      obtain ⟨_, _, -, hrest⟩ := bind_eq_ok.mp h
      obtain ⟨_, _, -, hrest⟩ := bind_eq_ok.mp hrest
      obtain ⟨_, _, -, hwrite⟩ := bind_eq_ok.mp hrest
      obtain ⟨_, -, hflow, -⟩ := writing_eq_ok.mp hwrite
      cases hflow
  | assignProperty name property expr line =>
      obtain ⟨_, _, -, hrest⟩ := bind_eq_ok.mp h
      obtain ⟨_, _, -, hwrite⟩ := bind_eq_ok.mp hrest
      obtain ⟨_, -, hflow, -⟩ := writing_eq_ok.mp hwrite
      cases hflow
  | branch condition yes no _ =>
      obtain ⟨decided, middle, hcondition, hrest⟩ := bind_eq_ok.mp h
      have hblock : execBlock (exec fuel) (if decided.truthy then yes else no.getD []) middle =
          .ok (.returned value line) after := by
        rw [← hrest]
        cases decided.truthy <;> rfl
      obtain ⟨next, begun, hturn, hreturned⟩ := exists_returned_of_execBlock hblock
      exact .inr ⟨next, begun, after, .branch hcondition hturn, hreturned, rfl⟩
  | loop condition body line =>
      obtain ⟨inner, hrounds, rfl⟩ := withScope_eq_ok.mp h
      obtain ⟨start, found, middle, hround, hfound, htruthy, hblock⟩ :=
        exists_returned_of_whileRounds hrounds
      obtain ⟨next, begun, hturn, hreturned⟩ := exists_returned_of_execBlock hblock
      exact .inr ⟨next, begun, inner, .round hround hfound htruthy hturn, hreturned, rfl⟩
  | range counter first bound step body line =>
      obtain ⟨start, second, hstart, hrest⟩ := bind_eq_ok.mp h
      obtain ⟨stop, third, hstop, hrest⟩ := bind_eq_ok.mp hrest
      obtain ⟨width, fourth, hwidth, hrest⟩ := bind_eq_ok.mp hrest
      obtain ⟨inner, hrounds, rfl⟩ := withScope_eq_ok.mp hrest
      obtain ⟨count, last, hround, hin, hblock⟩ := exists_returned_of_rangeRounds hrounds
      obtain ⟨next, begun, hturn, hreturned⟩ := exists_returned_of_execBlock hblock
      exact .inr ⟨next, begun, inner, .rangeRound hstart hstop hwidth hround hin hturn, hreturned,
        rfl⟩
  | define name parameters body line => cases h
  | giveBack given line =>
      obtain ⟨returned, last, hreturned, hrest⟩ := bind_eq_ok.mp h
      cases hrest
      exact .inl ⟨given, rfl, hreturned⟩
  | leave line => cases h
  | proceed line => cases h
  | attempt body errorName handler line =>
      rcases handling_eq_ok.mp h with hbody | ⟨raised, middle, hfault, hhandler⟩
      · obtain ⟨next, begun, hturn, hreturned⟩ := exists_returned_of_execBlock hbody
        exact .inr ⟨next, begun, after, .attempt hturn, hreturned, rfl⟩
      · obtain ⟨inner, hinner, rfl⟩ := withScope_eq_ok.mp hhandler
        obtain ⟨_, bound, hdefine, hblock⟩ := bind_eq_ok.mp hinner
        cases hdefine
        obtain ⟨next, begun, hturn, hreturned⟩ := exists_returned_of_execBlock hblock
        exact .inr ⟨next, begun, inner, .handler hfault hturn, hreturned, rfl⟩
  | expression expr line =>
      obtain ⟨_, _, -, hrest⟩ := bind_eq_ok.mp h
      cases hrest

/-- A container that a statement hands over has been given by the expression of a return in it, and
the store is as it was then. -/
theorem exists_giveBack_of_returned {statement : Stmt} (hvalue : value.address? = some address)
    (h : exec fuel statement before = .ok (.returned value line) after) :
    ∃ less expr begun ended,
      Leads fuel (.exec statement) before 0 (less + 1) (.exec (.giveBack (some expr) line)) begun ∧
      eval less expr begun = .ok value ended ∧ ended.store = after.store := by
  induction fuel generalizing statement before after with
  | zero => cases h
  | succ fuel ih =>
      rcases needs_of_returned h with
        ⟨given, rfl, hgiven⟩ | ⟨next, begun, ended, hneeds, hnext, hstore⟩
      · cases given with
        | none =>
            cases hgiven
            cases hvalue
        | some expr => exact ⟨fuel, expr, before, after, .refl, hgiven, rfl⟩
      · obtain ⟨less, expr, start, last, hleads, heval, hlast⟩ := ih hnext
        exact ⟨less, expr, start, last, .needs hneeds hleads, heval, hlast.trans hstore⟩

theorem returnedIn_of_execBlock {block : List Stmt} (hvalue : value.address? = some address)
    (h : execBlock (exec fuel) block before = .ok (.returned value line) after) :
    ReturnedIn fuel block before value after.store := by
  obtain ⟨statement, middle, hturn, hreturned⟩ := exists_returned_of_execBlock h
  obtain ⟨less, expr, begun, ended, hleads, heval, hstore⟩ :=
    exists_giveBack_of_returned hvalue hreturned
  exact ⟨_, middle, less, expr, line, begun, ended, hturn, hleads, heval, hstore⟩

end Bhasha
