import Bhasha.Proofs.Builtin.Bounds
import Bhasha.Proofs.Run.FatalRules
import Bhasha.Proofs.Store.Taken

/-!
# The fatal end

A record that is written under a key whose text shows the same record ends the run on the spot.
This is the only way to the fatal end, and nothing on the way out of the run prevents it: a run
ends so exactly if such a write is executed in it.
-/

namespace Bhasha

open Action

/-- A record is entangled with the index under which something is written into it when showing
the index comes to the record. -/
def Value.Entangled (store : Store) (target index : Value) : Prop :=
  ∃ address, target = .record address ∧ store.Reaches address index

namespace Value

variable {store : Store} {target index value : Value} {line : Nat}

theorem writeIndex_eq_fatal :
    target.writeIndex store index value line = .error .fatal ↔ target.Entangled store index := by
  unfold writeIndex Entangled
  cases target with
  | record address =>
      by_cases hreads : index.displayReads store address = true
      · simp [hreads, (displayReads_iff store address index).mp hreads]
      · have hreaches : ¬store.Reaches address index :=
          fun h => hreads ((displayReads_iff store address index).mpr h)
        simp [hreads, hreaches]
  | list address =>
      cases index.position? with
      | none => simp
      | some position => by_cases hposition : position ≤ greatestListIndex <;> simp [hposition]
  | _ => simp

theorem writeProperty_ne_fatal {name : String} :
    target.writeProperty name value line ≠ .error .fatal := by
  unfold writeProperty
  cases target <;> simp

end Value

namespace Builtin

variable {store : Store} {arguments : List Value} {line : Nat} {draw : Float}

theorem reads_ne_fatal {result : Except Fault Value} : reads result ≠ .error .fatal := by
  unfold reads
  cases result <;> simp

theorem apply_eq_fatal {builtin : Builtin} :
    builtin.apply arguments line draw store = .error .fatal ↔
      builtin = .writeAt ∧ ∃ target index value, arguments = [target, index, value] ∧
        target.Entangled store index := by
  constructor
  · intro h
    unfold apply at h
    split at h
    case h_14 target index value =>
      have hentangled := Value.writeIndex_eq_fatal.mp (map_eq_fatal.mp h)
      exact ⟨rfl, target, index, value, rfl, hentangled⟩
    all_goals first
      | cases h
      | exact absurd h reads_ne_fatal
      | (split at h <;> cases h)
  · rintro ⟨rfl, target, index, value, rfl, hentangled⟩
    exact map_eq_fatal.mpr (Value.writeIndex_eq_fatal.mpr hentangled)

end Builtin

section

variable {fuel : Nat} {before : Context}

@[simp] theorem noteDraw_ne_fatal {builtin : Builtin} : builtin.noteDraw before ≠ .fatal := by
  unfold Builtin.noteDraw
  by_cases hrandom : builtin = .random <;> simp [hrandom]

@[simp] theorem toResult_ne_fatal {flow : Flow} : flow.toResult before ≠ .fatal := by
  unfold Flow.toResult
  cases flow <;> simp

theorem callBuiltin_eq_fatal {builtin : Builtin} {arguments : List Value} {line : Nat} :
    callBuiltin builtin arguments line before = .fatal ↔
      builtin = .writeAt ∧ ∃ target index value, arguments = [target, index, value] ∧
        target.Entangled before.store index := by
  unfold callBuiltin
  constructor
  · intro h
    by_cases harity : builtin.arity.accepts arguments.length = true
    · rw [if_pos harity] at h
      have hwrite : builtin.apply arguments line before.random.next before.store =
          .error .fatal := by
        simpa [bind_eq_fatal, writing_eq_fatal, nextDraw] using h
      exact Builtin.apply_eq_fatal.mp hwrite
    · rw [if_neg harity] at h
      exact absurd h ofExcept_ne_fatal
  · rintro ⟨rfl, target, index, value, rfl, hentangled⟩
    have hwrite : Builtin.writeAt.apply [target, index, value] line before.random.next
        before.store = .error .fatal :=
      Builtin.apply_eq_fatal.mpr ⟨rfl, target, index, value, rfl, hentangled⟩
    have harity : Builtin.writeAt.arity.accepts [target, index, value].length = true := rfl
    rw [if_pos harity]
    simp [bind_eq_fatal, writing_eq_fatal, nextDraw, hwrite]

theorem callFunction_eq_fatal {function : Function} {values : List Value} {line : Nat} :
    callFunction (exec fuel) function values line before = .fatal ↔
      values.length = function.parameters.length ∧
        before.callDepth < before.config.maxCallDepth ∧
        ∃ start, defineAll (function.parameters.zip values) before.entered = .ok () start ∧
          FatalIn fuel (function.body.map .exec) start := by
  unfold callFunction
  by_cases hcount : values.length = function.parameters.length
  · by_cases hdepth : before.config.maxCallDepth ≤ before.callDepth
    · have hdeep : ¬before.callDepth < before.config.maxCallDepth := by omega
      simp [hcount, hdepth, hdeep]
    · have hshallow : before.callDepth < before.config.maxCallDepth := by omega
      obtain ⟨start, hstart⟩ := defineAll_eq_ok (function.parameters.zip values) before.entered
      have hentered : Context.pushed { before with callDepth := before.callDepth + 1 } =
          before.entered := rfl
      have hbody : runBody (exec fuel) function values before = .fatal ↔
          FatalIn fuel (function.body.map .exec) start := by
        unfold runBody
        rw [bind_eq_fatal, deeper_eq_fatal, withScope_eq_fatal, bind_eq_fatal, hentered, hstart,
          ← execBlock_eq_fatal]
        simp
      simp [hcount, hdepth, hshallow, hbody, hstart]
  · simp [hcount]

end

/-- A task with one more unit of fuel comes to a write into a record that is entangled with the
index: by an assignment, or by the built-in function that writes by index. -/
inductive Task.Entangles (fuel : Nat) : Task → Context → Prop where
  | assign {name : String} {place value : Expr} {line : Nat} {before middle after : Context}
      {target index written : Value} :
      before.scopes.get? name = some target → Bhasha.eval fuel place before = .ok index middle →
      Bhasha.eval fuel value middle = .ok written after → target.Entangled after.store index →
      Entangles fuel (.exec (.assignIndex name place value line)) before
  | call {name : String} {arguments : List Expr} {line : Nat} {before after : Context}
      {target index written : Value} :
      Builtin.ofName? name = some .writeAt →
      evalAll (Bhasha.eval fuel) arguments before = .ok [target, index, written] after →
      target.Entangled after.store index →
      Entangles fuel (.eval (.call name arguments line)) before

/-- A task with one more unit of fuel executes another one that ends fatally. -/
def Task.FatalWithin (fuel : Nat) (task : Task) (before : Context) : Prop :=
  ∃ next after, (Needs fuel task before next after ∨ Enters fuel task before next after) ∧
    next.action fuel after = .fatal

section

variable {fuel : Nat} {before : Context}

theorem FatalIn.operand {expr : Expr}
    (h : FatalIn fuel (expr.operands.map .eval) before) (hready : expr.Ready before) :
    (Task.eval expr).FatalWithin fuel before := by
  obtain ⟨next, after, hturn, hfatal⟩ := h
  exact ⟨next, after, .inl (.operand hready hturn), hfatal⟩

theorem FatalIn.value {statement : Stmt}
    (h : FatalIn fuel (statement.operands.map .eval) before) (hready : statement.Ready before) :
    (Task.exec statement).FatalWithin fuel before := by
  obtain ⟨next, after, hturn, hfatal⟩ := h
  exact ⟨next, after, .inl (.value hready hturn), hfatal⟩

theorem fatal_eval {expr : Expr} (h : eval (fuel + 1) expr before = .fatal) :
    (Task.eval expr).Entangles fuel before ∨ (Task.eval expr).FatalWithin fuel before := by
  cases expr with
  | literal value line => cases h
  | var name line => exact absurd h lookup_ne_fatal
  | unary op operand line =>
      have hoperands : FatalIn fuel ([operand].map .eval) before := by
        simpa [evalWith, bind_eq_fatal, fatalIn_eval_cons] using h
      exact .inr (hoperands.operand trivial)
  | binary op left right line =>
      have hoperands : FatalIn fuel ([left, right].map .eval) before := by
        simpa [evalWith, bind_eq_fatal, fatalIn_eval_cons] using h
      exact .inr (hoperands.operand trivial)
  | logical op left right line =>
      rcases bind_eq_fatal.mp h with hleft | ⟨value, middle, hleft, hright⟩
      · have hoperands : FatalIn fuel ([left].map .eval) before := by
          simp [fatalIn_eval_cons, hleft]
        exact .inr (hoperands.operand trivial)
      · cases hdecides : op.decides value with
        | true => simp [hdecides] at hright
        | false =>
            have hfatal : eval fuel right middle = .fatal := by simpa [hdecides] using hright
            exact .inr ⟨.eval right, middle, .inl (.right hleft hdecides),
              action_eval_eq_fatal.mpr hfatal⟩
  | list elements line =>
      have hoperands : FatalIn fuel (elements.map .eval) before := by
        simpa [evalWith, bind_eq_fatal, evalAll_eq_fatal, newList] using h
      exact .inr (hoperands.operand trivial)
  | record entries line =>
      have hoperands : FatalIn fuel ((entries.map Prod.snd).map .eval) before := by
        rcases bind_eq_fatal.mp h with hentries | ⟨fields, middle, -, hnew⟩
        · exact evalEntries_eq_fatal.mp hentries
        · cases hnew
      exact .inr (hoperands.operand trivial)
  | index target position line =>
      have hoperands : FatalIn fuel ([target, position].map .eval) before := by
        simpa [evalWith, bind_eq_fatal, fatalIn_eval_cons] using h
      exact .inr (hoperands.operand trivial)
  | property target name line =>
      have hoperands : FatalIn fuel ([target].map .eval) before := by
        simpa [evalWith, bind_eq_fatal, fatalIn_eval_cons] using h
      exact .inr (hoperands.operand trivial)
  | call name arguments line =>
      have hcall : evalCall (eval fuel) (exec fuel) name arguments line before = .fatal := h
      unfold evalCall at hcall
      cases hname : Builtin.ofName? name with
      | some builtin =>
          -- The only expression that makes the write itself.
          rw [hname] at hcall
          rcases bind_eq_fatal.mp hcall with harguments | ⟨values, middle, harguments, hcall⟩
          · have hready : (Expr.call name arguments line).Ready before := .inl (by simp [hname])
            exact .inr ((evalAll_eq_fatal.mp harguments).operand hready)
          · obtain ⟨rfl, target, index, written, rfl, hentangled⟩ :=
              callBuiltin_eq_fatal.mp hcall
            exact .inl (.call hname harguments hentangled)
      | none =>
          rw [hname] at hcall
          rcases bind_eq_fatal.mp hcall with hfind | ⟨function, found, hfind, hcall⟩
          · exact absurd hfind findFunction_ne_fatal
          · obtain ⟨hfunction, rfl⟩ := findFunction_eq_ok.mp hfind
            rcases bind_eq_fatal.mp hcall with harguments | ⟨values, middle, harguments, hcall⟩
            · have hready : (Expr.call name arguments line).Ready before :=
                .inr (by simp [hfunction])
              exact .inr ((evalAll_eq_fatal.mp harguments).operand hready)
            · obtain ⟨hcount, hdepth, start, hstart, next, after, hturn, hfatal⟩ :=
                callFunction_eq_fatal.mp hcall
              exact .inr ⟨next, after,
                .inr (.body hname hfunction harguments hcount hdepth hstart hturn), hfatal⟩

theorem evalNumber_eq_fatal {expr : Expr} {line : Nat} :
    evalNumber (eval fuel) expr line before = .fatal ↔ eval fuel expr before = .fatal := by
  unfold evalNumber
  simp [bind_eq_fatal]

theorem fatal_exec {statement : Stmt} (h : exec (fuel + 1) statement before = .fatal) :
    (Task.exec statement).Entangles fuel before ∨
      (Task.exec statement).FatalWithin fuel before := by
  cases statement with
  | declare name value line =>
      have hoperands : FatalIn fuel ([value].map .eval) before := by
        simpa [execWith, bind_eq_fatal, fatalIn_eval_cons, Action.define] using h
      exact .inr (hoperands.value trivial)
  | print value line =>
      have hoperands : FatalIn fuel ([value].map .eval) before := by
        simpa [execWith, bind_eq_fatal, fatalIn_eval_cons, Action.print] using h
      exact .inr (hoperands.value trivial)
  | assign name value line =>
      have hoperands : FatalIn fuel ([value].map .eval) before := by
        simpa [execWith, bind_eq_fatal, fatalIn_eval_cons] using h
      exact .inr (hoperands.value trivial)
  | assignIndex name place value line =>
      rcases bind_eq_fatal.mp h with hlookup | ⟨target, found, hlookup, hrest⟩
      · exact absurd hlookup lookup_ne_fatal
      · obtain ⟨htarget, rfl⟩ := lookup_eq_ok.mp hlookup
        have hready : (Stmt.assignIndex name place value line).Ready before := by
          simp [Stmt.Ready, htarget]
        rcases bind_eq_fatal.mp hrest with hplace | ⟨index, middle, hplace, hrest⟩
        · have hoperands : FatalIn fuel ([place, value].map .eval) before := by
            simp [fatalIn_eval_cons, hplace]
          exact .inr (hoperands.value hready)
        · rcases bind_eq_fatal.mp hrest with hvalue | ⟨written, after, hvalue, hwrite⟩
          · have hoperands : FatalIn fuel ([place, value].map .eval) before := by
              simp [fatalIn_eval_cons, hplace, hvalue]
            exact .inr (hoperands.value hready)
          · have hentangled := Value.writeIndex_eq_fatal.mp
              (map_eq_fatal.mp (writing_eq_fatal.mp hwrite))
            exact .inl (.assign htarget hplace hvalue hentangled)
  | assignProperty name property value line =>
      rcases bind_eq_fatal.mp h with hlookup | ⟨target, found, hlookup, hrest⟩
      · exact absurd hlookup lookup_ne_fatal
      · obtain ⟨htarget, rfl⟩ := lookup_eq_ok.mp hlookup
        have hready : (Stmt.assignProperty name property value line).Ready before := by
          simp [Stmt.Ready, htarget]
        rcases bind_eq_fatal.mp hrest with hvalue | ⟨written, after, hvalue, hwrite⟩
        · have hoperands : FatalIn fuel ([value].map .eval) before := by
            simp [fatalIn_eval_cons, hvalue]
          exact .inr (hoperands.value hready)
        · exact absurd (map_eq_fatal.mp (writing_eq_fatal.mp hwrite)) Value.writeProperty_ne_fatal
  | branch condition yes no line =>
      rcases bind_eq_fatal.mp h with hcondition | ⟨value, middle, hcondition, hblock⟩
      · have hoperands : FatalIn fuel ([condition].map .eval) before := by
          simp [fatalIn_eval_cons, hcondition]
        exact .inr (hoperands.value trivial)
      · have htaken : execBlock (exec fuel) (if value.truthy then yes else no.getD []) middle =
            .fatal := by
          by_cases htruthy : value.truthy = true <;> simpa [htruthy] using hblock
        obtain ⟨next, after, hturn, hfatal⟩ := execBlock_eq_fatal.mp htaken
        exact .inr ⟨next, after, .inl (.branch hcondition hturn), hfatal⟩
  | loop condition body line =>
      have hrounds := withScope_eq_fatal.mp h
      obtain ⟨start, hround, hend⟩ := whileRounds_eq_fatal.mp hrounds
      rcases hend with hcondition | ⟨value, middle, hcondition, htruthy, hbody⟩
      · exact .inr ⟨.eval condition, start, .inl (.condition hround),
          action_eval_eq_fatal.mpr hcondition⟩
      · obtain ⟨next, after, hturn, hfatal⟩ := execBlock_eq_fatal.mp hbody
        exact .inr ⟨next, after, .inl (.round hround hcondition htruthy hturn), hfatal⟩
  | range counter first bound step body line =>
      rcases bind_eq_fatal.mp h with hfirst | ⟨start, second, hfirst, hrest⟩
      · exact .inr ⟨.eval first, before, .inl .rangeFirst,
          action_eval_eq_fatal.mpr (evalNumber_eq_fatal.mp hfirst)⟩
      · rcases bind_eq_fatal.mp hrest with hbound | ⟨stop, third, hbound, hrest⟩
        · exact .inr ⟨.eval bound, second, .inl (.rangeBound hfirst),
            action_eval_eq_fatal.mpr (evalNumber_eq_fatal.mp hbound)⟩
        · rcases bind_eq_fatal.mp hrest with hstep | ⟨width, fourth, hstep, hrest⟩
          · cases step with
            | none => cases hstep
            | some step =>
                exact .inr ⟨.eval step, third, .inl (.rangeStep hfirst hbound),
                  action_eval_eq_fatal.mpr (evalNumber_eq_fatal.mp hstep)⟩
          · obtain ⟨count, last, hround, hrange, hbody⟩ :=
              rangeRounds_eq_fatal.mp (withScope_eq_fatal.mp hrest)
            obtain ⟨next, after, hturn, hfatal⟩ := execBlock_eq_fatal.mp hbody
            exact .inr ⟨next, after,
              .inl (.rangeRound hfirst hbound hstep hround hrange hturn), hfatal⟩
  | define name parameters body line => cases h
  | giveBack value line =>
      have hoperands : FatalIn fuel (value.toList.map .eval) before := by
        cases value with
        | none => cases h
        | some value => simpa [execWith, evalReturned, bind_eq_fatal, fatalIn_eval_cons] using h
      exact .inr (hoperands.value trivial)
  | leave line => cases h
  | proceed line => cases h
  | attempt body errorName handler line =>
      rcases handling_eq_fatal.mp h with hbody | ⟨raised, middle, hbody, hhandler⟩
      · obtain ⟨next, after, hturn, hfatal⟩ := execBlock_eq_fatal.mp hbody
        exact .inr ⟨next, after, .inl (.attempt hturn), hfatal⟩
      · have hblock : execBlock (exec fuel) handler
            (middle.pushed.bound errorName (.text raised.message)) = .fatal :=
          withScope_eq_fatal.mp hhandler
        obtain ⟨next, after, hturn, hfatal⟩ := execBlock_eq_fatal.mp hblock
        exact .inr ⟨next, after, .inl (.handler hbody hturn), hfatal⟩
  | expression value line =>
      have hoperands : FatalIn fuel ([value].map .eval) before := by
        simpa [execWith, bind_eq_fatal, fatalIn_eval_cons] using h
      exact .inr (hoperands.value trivial)

theorem eval_fatal_of_operands {expr : Expr}
    (h : FatalIn fuel (expr.operands.map .eval) before) (hready : expr.Ready before) :
    eval (fuel + 1) expr before = .fatal := by
  cases expr with
  | literal value line => exact absurd h not_fatalIn_nil
  | var name line => exact absurd h not_fatalIn_nil
  | unary op operand line =>
      simpa [Expr.operands, evalWith, bind_eq_fatal, fatalIn_eval_cons] using h
  | binary op left right line =>
      simpa [Expr.operands, evalWith, bind_eq_fatal, fatalIn_eval_cons] using h
  | logical op left right line =>
      have hleft : eval fuel left before = .fatal := by
        simpa [Expr.operands, fatalIn_eval_cons] using h
      exact fatal_of_first hleft
  | list elements line => exact fatal_of_first (evalAll_eq_fatal.mpr h)
  | record entries line => exact fatal_of_first (evalEntries_eq_fatal.mpr h)
  | index target position line =>
      simpa [Expr.operands, evalWith, bind_eq_fatal, fatalIn_eval_cons] using h
  | property target name line =>
      simpa [Expr.operands, evalWith, bind_eq_fatal, fatalIn_eval_cons] using h
  | call name arguments line =>
      have harguments : evalAll (eval fuel) arguments before = .fatal := evalAll_eq_fatal.mpr h
      change evalCall (eval fuel) (exec fuel) name arguments line before = .fatal
      unfold evalCall
      cases hname : Builtin.ofName? name with
      | some builtin => exact fatal_of_first harguments
      | none =>
          have hfunction : (before.functions.get? name).isSome := by
            simpa [Expr.Ready, hname] using hready
          obtain ⟨function, hfunction⟩ := Option.isSome_iff_exists.mp hfunction
          have hfind : findFunction name line before = .ok function before :=
            findFunction_eq_ok.mpr ⟨hfunction, rfl⟩
          exact fatal_of_next hfind (fatal_of_first harguments)

theorem exec_fatal_of_operands {statement : Stmt}
    (h : FatalIn fuel (statement.operands.map .eval) before) (hready : statement.Ready before) :
    exec (fuel + 1) statement before = .fatal := by
  cases statement with
  | declare name value line =>
      simpa [Stmt.operands, execWith, bind_eq_fatal, fatalIn_eval_cons, Action.define] using h
  | print value line =>
      simpa [Stmt.operands, execWith, bind_eq_fatal, fatalIn_eval_cons, Action.print] using h
  | assign name value line =>
      simpa [Stmt.operands, execWith, bind_eq_fatal, fatalIn_eval_cons] using h
  | assignIndex name place value line =>
      obtain ⟨target, htarget⟩ := Option.isSome_iff_exists.mp hready
      have hlookup : lookup name line before = .ok target before := lookup_eq_ok.mpr ⟨htarget, rfl⟩
      refine fatal_of_next hlookup ?_
      rcases fatalIn_eval_cons.mp h with hplace | ⟨index, middle, hplace, hrest⟩
      · exact fatal_of_first hplace
      · have hvalue : eval fuel value middle = .fatal := by
          simpa [fatalIn_eval_cons] using hrest
        exact fatal_of_next hplace (fatal_of_first hvalue)
  | assignProperty name property value line =>
      obtain ⟨target, htarget⟩ := Option.isSome_iff_exists.mp hready
      have hlookup : lookup name line before = .ok target before := lookup_eq_ok.mpr ⟨htarget, rfl⟩
      have hvalue : eval fuel value before = .fatal := by
        simpa [Stmt.operands, fatalIn_eval_cons] using h
      exact fatal_of_next hlookup (fatal_of_first hvalue)
  | branch condition yes no line =>
      have hcondition : eval fuel condition before = .fatal := by
        simpa [Stmt.operands, fatalIn_eval_cons] using h
      exact fatal_of_first hcondition
  | giveBack value line =>
      cases value with
      | none => exact absurd h not_fatalIn_nil
      | some value =>
          simpa [Stmt.operands, execWith, evalReturned, bind_eq_fatal, fatalIn_eval_cons] using h
  | expression value line =>
      simpa [Stmt.operands, execWith, bind_eq_fatal, fatalIn_eval_cons] using h
  | loop condition body line => exact absurd h not_fatalIn_nil
  | range counter first bound step body line => exact absurd h not_fatalIn_nil
  | define name parameters body line => exact absurd h not_fatalIn_nil
  | leave line => exact absurd h not_fatalIn_nil
  | proceed line => exact absurd h not_fatalIn_nil
  | attempt body errorName handler line => exact absurd h not_fatalIn_nil

theorem InTurn.fatalIn
    {tasks : List Task} {task : Task} {after : Context} (h : InTurn fuel tasks before task after)
    (hfatal : task.action fuel after = .fatal) : FatalIn fuel tasks before :=
  ⟨task, after, h, hfatal⟩

theorem Needs.fatal
    {task next : Task} {after : Context} (h : Needs fuel task before next after)
    (hfatal : next.action fuel after = .fatal) : task.action (fuel + 1) before = .fatal := by
  cases h with
  | operand hready hturn =>
      exact action_eval_eq_fatal.mpr (eval_fatal_of_operands (hturn.fatalIn hfatal) hready)
  | @right op left right line value _ _ hleft hdecides =>
      have hright : eval fuel right after = .fatal := action_eval_eq_fatal.mp hfatal
      have hlast : (if op.decides value then pure value else eval fuel right) after = .fatal := by
        simpa [hdecides] using hright
      exact action_eval_eq_fatal.mpr (fatal_of_next hleft hlast)
  | value hready hturn => exact exec_fatal_of_operands (hturn.fatalIn hfatal) hready
  | @branch condition yes no line value _ _ _ _ hcondition hturn =>
      have htaken := execBlock_eq_fatal.mpr (hturn.fatalIn hfatal)
      refine fatal_of_next hcondition ?_
      by_cases htruthy : value.truthy = true <;> simpa [htruthy] using htaken
  | condition hround =>
      have hcondition := action_eval_eq_fatal.mp hfatal
      exact withScope_eq_fatal.mpr (whileRounds_eq_fatal.mpr ⟨after, hround, .inl hcondition⟩)
  | @round _ _ _ value _ start middle _ _ hround hcondition htruthy hturn =>
      have hbody := execBlock_eq_fatal.mpr (hturn.fatalIn hfatal)
      exact withScope_eq_fatal.mpr (whileRounds_eq_fatal.mpr
        ⟨start, hround, .inr ⟨value, middle, hcondition, htruthy, hbody⟩⟩)
  | rangeFirst =>
      have hfirst := action_eval_eq_fatal.mp hfatal
      exact fatal_of_first (evalNumber_eq_fatal.mpr hfirst)
  | rangeBound hfirst =>
      have hbound := action_eval_eq_fatal.mp hfatal
      exact fatal_of_next hfirst (fatal_of_first (evalNumber_eq_fatal.mpr hbound))
  | rangeStep hfirst hbound =>
      have hstep := action_eval_eq_fatal.mp hfatal
      exact fatal_of_next hfirst
        (fatal_of_next hbound (fatal_of_first (evalNumber_eq_fatal.mpr hstep)))
  | rangeRound hfirst hbound hstep hround hrange hturn =>
      have hbody := execBlock_eq_fatal.mpr (hturn.fatalIn hfatal)
      have hrounds := rangeRounds_eq_fatal.mpr ⟨_, _, hround, hrange, hbody⟩
      exact fatal_of_next hfirst
        (fatal_of_next hbound (fatal_of_next hstep (withScope_eq_fatal.mpr hrounds)))
  | attempt hturn =>
      have hbody := execBlock_eq_fatal.mpr (hturn.fatalIn hfatal)
      exact handling_eq_fatal.mpr (.inl hbody)
  | @handler _ _ _ _ raised _ middle _ _ hbody hturn =>
      have hblock := execBlock_eq_fatal.mpr (hturn.fatalIn hfatal)
      exact handling_eq_fatal.mpr (.inr ⟨raised, middle, hbody, withScope_eq_fatal.mpr hblock⟩)

theorem Enters.fatal
    {task next : Task} {after : Context} (h : Enters fuel task before next after)
    (hfatal : next.action fuel after = .fatal) : task.action (fuel + 1) before = .fatal := by
  cases h with
  | @body name arguments line function values _ middle start _ _ hname hfunction harguments hcount
      hdepth hstart hturn =>
      have hcall : callFunction (exec fuel) function values line middle = .fatal :=
        callFunction_eq_fatal.mpr ⟨hcount, hdepth, start, hstart, hturn.fatalIn hfatal⟩
      have hfind : findFunction name line before = .ok function before :=
        findFunction_eq_ok.mpr ⟨hfunction, rfl⟩
      have hwhole : evalCall (eval fuel) (exec fuel) name arguments line before = .fatal := by
        unfold evalCall
        rw [hname]
        exact fatal_of_next hfind (fatal_of_next harguments hcall)
      exact action_eval_eq_fatal.mpr hwhole

theorem Task.Entangles.fatal
    {task : Task} (h : task.Entangles fuel before) : task.action (fuel + 1) before = .fatal := by
  cases h with
  | @assign name place value line _ middle after target index written htarget hplace hvalue
      hentangled =>
      have hlookup : lookup name line before = .ok target before := lookup_eq_ok.mpr ⟨htarget, rfl⟩
      have hwrite : target.writeIndex after.store index written line = .error .fatal :=
        Value.writeIndex_eq_fatal.mpr hentangled
      refine fatal_of_next hlookup (fatal_of_next hplace (fatal_of_next hvalue ?_))
      exact writing_eq_fatal.mpr (map_eq_fatal.mpr hwrite)
  | @call name arguments line _ after target index written hname harguments hentangled =>
      have hwrite : callBuiltin .writeAt [target, index, written] line after = .fatal :=
        callBuiltin_eq_fatal.mpr ⟨rfl, target, index, written, rfl, hentangled⟩
      have hwhole : evalCall (Bhasha.eval fuel) (Bhasha.exec fuel) name arguments line before =
          .fatal := by
        unfold evalCall
        rw [hname]
        exact fatal_of_next harguments hwrite
      exact action_eval_eq_fatal.mpr hwhole

theorem fatal_action {task : Task} (h : task.action (fuel + 1) before = .fatal) :
    task.Entangles fuel before ∨ task.FatalWithin fuel before := by
  cases task with
  | eval expr => exact fatal_eval (action_eval_eq_fatal.mp h)
  | exec statement => exact fatal_exec h

end

theorem Leads.fatal
    {fuel bodies fuel' : Nat} {task last : Task} {before after : Context}
    (h : Leads fuel task before bodies (fuel' + 1) last after) (hlast : last.Entangles fuel' after) :
    task.action fuel before = .fatal := by
  generalize hfuel : fuel' + 1 = left at h
  induction h with
  | refl =>
      subst hfuel
      exact hlast.fatal
  | needs hneeds _ ih => exact hneeds.fatal (ih hlast hfuel)
  | enters henters _ ih => exact henters.fatal (ih hlast hfuel)

/-- A task ends fatally exactly if it leads to an entangled write. -/
theorem action_eq_fatal_iff {fuel : Nat} {task : Task} {before : Context} :
    task.action fuel before = .fatal ↔
      ∃ bodies fuel' last after, Leads fuel task before bodies (fuel' + 1) last after ∧
        last.Entangles fuel' after := by
  constructor
  · intro h
    -- Without fuel there is no end at all, and each task has less of it than the one that needs it.
    induction fuel generalizing task before with
    | zero => cases task <;> cases h
    | succ fuel ih =>
        rcases fatal_action h with hentangles | ⟨next, middle, hnext, hfatal⟩
        · exact ⟨0, fuel, task, before, .refl, hentangles⟩
        · obtain ⟨bodies, fuel', last, after, hleads, hlast⟩ := ih hfatal
          rcases hnext with hneeds | henters
          · exact ⟨bodies, fuel', last, after, .needs hneeds hleads, hlast⟩
          · exact ⟨bodies + 1, fuel', last, after, .enters henters hleads, hlast⟩
  · rintro ⟨bodies, fuel', last, after, hleads, hlast⟩
    exact hleads.fatal hlast

theorem Program.evaluate_eq_fatal_iff {program : Program} {fuel : Nat} {start : Context} :
    program.evaluate fuel start = .fatal ↔
      ∃ bodies fuel' task context, program.Executes fuel start bodies (fuel' + 1) task context ∧
        task.Entangles fuel' context := by
  have hfinish : ∀ flow context, Flow.finish flow context ≠ .fatal := by
    intro flow context
    cases flow <;> simp [Flow.finish]
  have hblock : program.evaluate fuel start = .fatal ↔
      FatalIn fuel (program.map .exec) start := by
    unfold Program.evaluate
    rw [bind_eq_fatal, execBlock_eq_fatal]
    simp [hfinish]
  rw [hblock]
  constructor
  · rintro ⟨first, before, hturn, hfatal⟩
    obtain ⟨bodies, fuel', task, context, hleads, htask⟩ := action_eq_fatal_iff.mp hfatal
    exact ⟨bodies, fuel', task, context, ⟨first, before, hturn, hleads⟩, htask⟩
  · rintro ⟨bodies, fuel', task, context, ⟨first, before, hturn, hleads⟩, htask⟩
    exact ⟨first, before, hturn, hleads.fatal htask⟩

theorem attempt_fatal
    {fuel : Nat} {body handler : List Stmt} {errorName : String} {line : Nat} {before : Context}
    (h : execBlock (exec fuel) body before = .fatal) :
    exec (fuel + 1) (.attempt body errorName handler line) before = .fatal :=
  handling_eq_fatal.mpr (.inl h)

/-- A write by index ends the run exactly if it goes into a record that the index reaches: it takes
the record and then shows the index.  No other operation ends a run: showing a value fails only
while a container that the value reaches is taken, a write of a property never does, of the
built-in functions only the one that writes by index does, and the places at which lists are
written and texts are taken apart are inside.  So a run ends fatally exactly if such a write is
executed in it, inside an attempt or not. -/
theorem Program.fatal_end :
    (∀ (store : Store) (target index value : Value) (line : Nat),
      target.writeIndex store index value line = .error .fatal ↔
        ∃ address, target = .record address ∧ store.Reaches address index) ∧
    (∀ (store : Store) (value : Value), store.Fits → value.FitsIn store →
      value.displayWhile? store none = some (value.display store) ∧
        (∀ taken, value.displayWhile? store (some taken) = none ↔ store.Reaches taken value) ∧
        ∀ (address : Address) (written : Value) (line : Nat),
          (Value.record address).writeIndex store value written line =
            match value.displayWhile? store (some address) with
            | some key => .ok (.setField address key written)
            | none => .error .fatal) ∧
    (∀ (target value : Value) (name : String) (line : Nat),
      target.writeProperty name value line ≠ .error .fatal) ∧
    (∀ (builtin : Builtin) (arguments : List Value) (line : Nat) (draw : Float) (store : Store),
      builtin.apply arguments line draw store = .error .fatal ↔
        builtin = .writeAt ∧ ∃ target index value, arguments = [target, index, value] ∧
          target.Entangled store index) ∧
    (∀ (items : Array Value) (position : Nat) (value : Value),
      (Effect.placeItem items position value)[position]? = some value) ∧
    (∀ (store : Store) (length : Nat) (value : Value),
      Builtin.boundOf store length value ≤ length) ∧
    (∀ (needle text : List Char) (place : Nat), Builtin.occurrence? needle text = some place →
      place + needle.length ≤ text.length) ∧
    (∀ (program : Program) (fuel : Nat) (start : Context),
      program.evaluate fuel start = .fatal ↔
        ∃ bodies fuel' task context,
          program.Executes fuel start bodies (fuel' + 1) task context ∧
            task.Entangles fuel' context) ∧
    ∀ (fuel : Nat) (body handler : List Stmt) (errorName : String) (line : Nat) (before : Context),
      execBlock (exec fuel) body before = .fatal →
        exec (fuel + 1) (.attempt body errorName handler line) before = .fatal := by
  refine ⟨?_, ?_, ?_, ?_, ?_, ?_, ?_, ?_, ?_⟩
  · intro store target index value line
    exact Value.writeIndex_eq_fatal
  · intro store value hstore hvalue
    refine ⟨?_, ?_, ?_⟩
    · rw [Value.displayWhile?_eq hstore hvalue]
      rfl
    · intro taken
      rw [Value.displayWhile?_eq hstore hvalue, Option.any_some, ← Value.displayReads_iff]
      cases value.displayReads store taken <;> simp
    · intro address written line
      exact Value.writeIndex_record hstore hvalue
  · intro target value name line
    exact Value.writeProperty_ne_fatal
  · intro builtin arguments line draw store
    exact Builtin.apply_eq_fatal
  · exact Effect.getElem?_placeItem
  · exact Builtin.boundOf_le
  · intro needle text place h
    exact Builtin.occurrence?_le h
  · intro program fuel start
    exact program.evaluate_eq_fatal_iff
  · intro fuel body handler errorName line before h
    exact attempt_fatal h

/-- A record is written under itself, inside an attempt. -/
example : Program.evaluate 4
    [.declare "r" (.record [] 1) 1,
      .attempt [.assignIndex "r" (.var "r" 2) (.literal .null 2) 2] "e" [] 2]
    { random := .ofSeed 0 } = .fatal := by
  rfl

end Bhasha
