import Bhasha.Proofs.Run.Returns

/-!
# The identity of containers

In a run every list and every record has one identity, which is its address.  The values that hold
it stand for a container of their own kind in every state, a literal makes a container of its own
each time that it is evaluated, and everything else hands on the containers that there are.
-/

namespace Bhasha

open Action

/-- The task gives the value: an expression evaluates to it, or a statement hands over control with
it. -/
inductive Task.Yields (fuel : Nat) (begun : Context) (value : Value) (after : Context) :
    Task → Prop where
  | value {expr : Expr} :
      Bhasha.eval fuel expr begun = .ok value after → Yields fuel begun value after (.eval expr)
  | returned {statement : Stmt} {line : Nat} :
      Bhasha.exec fuel statement begun = .ok (.returned value line) after →
      Yields fuel begun value after (.exec statement)

namespace Program

/-- All values that there are in a run stand for a container of their own kind, if they stand for
one: those that a scope, a container or the pending output holds, those that are given by an
expression or are being returned, and those that are handed over in the end. -/
structure RefersWell (program : Program) (fuel : Nat) (start : Context) : Prop where
  held : ∀ {bodies : Nat} {context : Context}, program.Visits fuel start bodies context →
    context.Fits
  yielded : ∀ {bodies fuel' : Nat} {task : Task} {begun after : Context} {value : Value},
    program.Executes fuel start bodies fuel' task begun → task.Yields fuel' begun value after →
    value.FitsIn after.store
  handedOver : ∀ {output : Array Value} {last : Context},
    program.evaluate fuel start = .ok output last → ∀ value ∈ output, value.FitsIn last.store

/-- No container changes its kind, and none is lost: the states of a run come one after the other,
from the first to the last, and each has the containers of those before it. -/
structure KeepsContainers (program : Program) (fuel : Nat) (start : Context) : Prop where
  kinds : ∀ {bodies bodies' : Nat} {context later : Context} {address : Address}
    {former latter : Container}, program.Visits fuel start bodies context →
    program.Visits fuel start bodies' later → context.store.get? address = some former →
    later.store.get? address = some latter → former.type = latter.type
  inLine : ∀ {bodies bodies' : Nat} {context later : Context},
    program.Visits fuel start bodies context → program.Visits fuel start bodies' later →
    context.store.KindsStay later.store ∨ later.store.KindsStay context.store
  afterStart : ∀ {bodies : Nat} {context : Context}, program.Visits fuel start bodies context →
    start.store.KindsStay context.store
  beforeEnd : ∀ {bodies : Nat} {context last : Context},
    program.Visits fuel start bodies context → (program.evaluate fuel start).LeavesIn last →
    context.store.KindsStay last.store

/-- Each evaluation of a literal gives a container of the kind of the literal that is none of those
that are there before, so that all states in which it is there come later.  Different evaluations,
of the same literal or of different ones, give different containers. -/
structure MakesApart (program : Program) (fuel : Nat) (start : Context) : Prop where
  isNew : ∀ {bodies fuel' : Nat} {expr : Expr} {kind : ValueType} {value : Value}
    {begun after : Context}, program.Executes fuel start bodies fuel' (.eval expr) begun →
    expr.makes? = some kind → eval fuel' expr begun = .ok value after →
    value.IsNew kind begun.store after.store
  later : ∀ {bodies bodies' fuel' : Nat} {expr : Expr} {kind : ValueType} {value : Value}
    {address : Address} {begun after context : Context},
    program.Executes fuel start bodies fuel' (.eval expr) begun → expr.makes? = some kind →
    eval fuel' expr begun = .ok value after → program.Visits fuel start bodies' context →
    value.address? = some address → context.store.get? address ≠ none →
    after.store.KindsStay context.store
  distinct : ∀ {bodies bodies' fuel' fuel'' : Nat} {expr expr' : Expr} {kind kind' : ValueType}
    {value value' : Value} {begun begun' after after' : Context},
    program.Executes fuel start bodies fuel' (.eval expr) begun →
    program.Executes fuel start bodies' fuel'' (.eval expr') begun' →
    expr.makes? = some kind → expr'.makes? = some kind' →
    eval fuel' expr begun = .ok value after → eval fuel'' expr' begun' = .ok value' after' →
    value.address? = value'.address? → fuel'' = fuel' ∧ expr' = expr ∧ begun' = begun

/-- No expression but a literal gives a container that it does not hand on: from a name, from a
place of a list or a record, from an operand, from an argument, or from a return.  What a built-in
function appends or writes, what a statement assigns and what a call passes to a parameter stands
there as it is, and what a body hands over is what the expression of a return in it has given. -/
structure HandsOnContainers (program : Program) (fuel : Nat) (start : Context) : Prop where
  evaluated : ∀ {bodies fuel' : Nat} {expr : Expr} {value : Value} {address : Address}
    {begun after : Context}, program.Executes fuel start bodies (fuel' + 1) (.eval expr) begun →
    expr.makes? = none → value.address? = some address →
    (eval (fuel' + 1) expr begun = .ok value after ↔ expr.HandsOn fuel' begun value after)
  stored : ∀ {bodies fuel' line : Nat} {name : String} {arguments : List Expr}
    {builtin : Builtin} {values : List Value} {value : Value} {begun middle after : Context},
    program.Executes fuel start bodies (fuel' + 1) (.eval (.call name arguments line)) begun →
    Builtin.ofName? name = some builtin → builtin = .append ∨ builtin = .writeAt →
    evalAll (eval fuel') arguments begun = .ok values middle →
    callBuiltin builtin values line middle = .ok value after →
    builtin.Stores middle values value after
  assigned : ∀ {bodies fuel' : Nat} {statement : Stmt} {flow : Flow} {begun after : Context},
    program.Executes fuel start bodies (fuel' + 1) (.exec statement) begun →
    statement.isAssignment = true → exec (fuel' + 1) statement begun = .ok flow after →
    flow = .normal ∧ ∃ place value known,
      statement.Assigns fuel' begun place value known ∧ known.Puts place value after
  passed : ∀ {bodies fuel' line index : Nat} {name parameter : String} {arguments : List Expr}
    {function : Function} {values : List Value} {begun opened inner : Context},
    program.Executes fuel start bodies (fuel' + 1) (.eval (.call name arguments line)) begun →
    Opens fuel' (.call name arguments line) begun function values opened →
    defineAll (function.parameters.zip values) opened = .ok () inner →
    function.parameters[index]? = some parameter →
    (∀ later, index < later → function.parameters[later]? ≠ some parameter) →
    ∃ argument value given ended, arguments[index]? = some argument ∧
      InTurn fuel' (arguments.map .eval) begun (.eval argument) given ∧
      eval fuel' argument given = .ok value ended ∧ inner.at? (.name parameter) = some value
  returned : ∀ {bodies fuel' line : Nat} {call : Expr} {function : Function} {values : List Value}
    {value : Value} {address : Address} {begun opened inner ended : Context},
    program.Executes fuel start bodies (fuel' + 1) (.eval call) begun →
    Opens fuel' call begun function values opened →
    defineAll (function.parameters.zip values) opened = .ok () inner →
    execBlock (exec fuel') function.body inner = .ok (.returned value line) ended →
    value.address? = some address →
    ReturnedIn fuel' function.body inner value ended.store

variable {start : Context}

theorem refersWell (program : Program) (fuel : Nat) (hstart : start.Fits) :
    program.RefersWell fuel start where
  held hvisits := Context.Fits.pervades.of_run hvisits hstart
  yielded hexecutes hyields := by
    have hbegun := Context.Fits.pervades.of_executes hexecutes hstart
    cases hyields with
    | value heval => exact eval_fits hbegun heval
    | returned hexec => exact exec_fits hbegun hexec
  handedOver h := evaluate_fits hstart h

theorem keepsContainers (program : Program) (fuel : Nat) (start : Context) :
    program.KeepsContainers fuel start where
  kinds := by
    intro bodies bodies' context later address former latter hvisits hvisits' hformer hlatter
    rcases hvisits.comparable hvisits' with hlater | hearlier
    · exact hlater.type_eq hformer hlatter
    · exact (hearlier.type_eq hlatter hformer).symm
  inLine := Visits.comparable
  afterStart := Visits.after_start
  beforeEnd := Visits.before_end

theorem makesApart (program : Program) (fuel : Nat) (start : Context) :
    program.MakesApart fuel start where
  isNew {_ fuel' _ _ _ _ _} hexecutes hmakes heval := by
    cases fuel' with
    | zero => cases heval
    | succ less => exact isNew_of_makes hmakes heval
  later hexecutes hmakes heval hvisits := hexecutes.kindsStay_of_literal hmakes heval hvisits
  distinct hexecutes hexecutes' := hexecutes.eq_of_literals hexecutes'

theorem handsOnContainers (program : Program) (fuel : Nat) (hstart : start.Fits) :
    program.HandsOnContainers fuel start where
  evaluated _ hmakes hvalue := eval_eq_reference hvalue hmakes
  stored hexecutes _ hbuiltin hvalues hcall := by
    have hbegun := Context.Fits.pervades.of_executes hexecutes hstart
    exact stores_of_callBuiltin (evalAll_fits hbegun hvalues) hbuiltin hcall
  assigned hexecutes := assigns_of_exec (Context.Fits.pervades.of_executes hexecutes hstart)
  passed _ := exists_argument_of_opens
  returned _ _ _ hblock hvalue := returnedIn_of_execBlock hvalue hblock

end Program

/-- In every run of a program, whatever programs have been run before it in the session, references
are valid, containers keep their kinds, each literal makes a container of its own, and all else
hands on the containers that there are. -/
theorem references_of_run {config : Config} {random : RandomSource} {earlier : List Program}
    {printed handed : Array Value} {start : Context}
    (hsession : Session { config := config, random := random } earlier printed handed start)
    (program : Program) (fuel : Nat) :
    program.RefersWell fuel start ∧ program.KeepsContainers fuel start ∧
      program.MakesApart fuel start ∧ program.HandsOnContainers fuel start := by
  have hstart : start.Fits :=
    Context.Fits.pervades.of_session hsession (Context.fits_initial config random)
  exact ⟨program.refersWell fuel hstart, program.keepsContainers fuel start,
    program.makesApart fuel start, program.handsOnContainers fuel hstart⟩

/-- A function that returns a literal is called twice.  The second list is another one than the
first, which is there by then and is passed on as the argument. -/
theorem references_of_run_twice :
    let literal : Expr := .list [.var "x" 1] 1
    let function : Function := ⟨"f", ["x"], [.giveBack (some literal) 1], 1⟩
    let program : Program :=
      [.define "f" ["x"] function.body 1, .declare "b" (.call "f" [.var "a" 2] 2) 2,
        .expression (.call "f" [.var "b" 3] 3) 3]
    let start : Context :=
      { store := ⟨#[.list #[]]⟩, scopes := ⟨[], ⟨[("a", .list 0)]⟩⟩
        random := { sample := fun _ => 0 } }
    let first : Context :=
      { start with functions := ⟨[("f", function)]⟩, callDepth := 1
                   scopes := ⟨[⟨[("x", .list 0)]⟩], ⟨[("a", .list 0)]⟩⟩ }
    let second : Context :=
      { first with store := ⟨#[.list #[], .list #[.list 0]]⟩
                   scopes := ⟨[⟨[("x", .list 1)]⟩], ⟨[("a", .list 0), ("b", .list 1)]⟩⟩ }
    (∃ printed,
      Session { random := start.random } [[.declare "a" (.list [] 1) 1]] printed #[] start) ∧
    ∃ after last,
      program.Executes 6 start 1 3 (.eval literal) first ∧
      eval 3 literal first = .ok (.list 1) after ∧
      program.Executes 6 start 1 3 (.eval literal) second ∧
      eval 3 literal second = .ok (.list 2) last ∧
      (Value.list 1).IsNew .list first.store after.store ∧
      (Value.list 2).IsNew .list second.store last.store ∧
      after.store.KindsStay second.store ∧ last.Fits ∧
      (Expr.var "x" 1).HandsOn 1 second (.list 1) second := by
  intro literal function program start first second
  have hearlier : Program.evaluate 2 [.declare "a" (.list [] 1) 1] { random := start.random } =
      .ok #[] start := rfl
  have hsession := Session.ok hearlier .nil
  obtain ⟨hrefers, -, hapart, hhands⟩ := references_of_run hsession program 6
  have hfirst : program.Executes 6 start 1 3 (.eval literal) first :=
    ⟨_, _, .later rfl .first, .needs (.value trivial .first)
      (.enters (.body rfl rfl rfl rfl (Nat.succ_pos 127) rfl .first)
        (.needs (.value trivial .first) .refl))⟩
  have hsecond : program.Executes 6 start 1 3 (.eval literal) second :=
    ⟨_, _, .later rfl (.later rfl .first), .needs (.value trivial .first)
      (.enters (.body rfl rfl rfl rfl (Nat.succ_pos 127) rfl .first)
        (.needs (.value trivial .first) .refl))⟩
  obtain ⟨bodies, hread⟩ := hsecond.then_leads (.needs (.operand trivial .first) .refl)
  have hlast : program.Visits 6 start 1 _ := .ends hsecond (.inl ⟨.normal, rfl⟩)
  exact ⟨⟨_, hsession⟩, _, _, hfirst, rfl, hsecond, rfl, hapart.isNew hfirst rfl rfl,
    hapart.isNew hsecond rfl rfl, hapart.later hfirst rfl rfl (.begins hsecond) rfl nofun,
    hrefers.held hlast, (hhands.evaluated hread rfl rfl).mp rfl⟩

end Bhasha
