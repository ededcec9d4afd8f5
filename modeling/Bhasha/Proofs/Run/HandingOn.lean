import Bhasha.Proofs.Run.Literals
import Bhasha.Proofs.Run.Places
import Bhasha.Proofs.Store.Operations

/-!
# How containers are handed on

Apart from literals, no expression makes a container.  One that gives a container hands on the very
container that stands at a place, that it has from an operand, or that the body of a function has
returned.  Here this is shown for each kind of expression, together with the converse: what stands
at a place is given by the expressions that read it.
-/

namespace Bhasha

open Action

/-- A built-in function gives a container that it has been given, or one that stands in it. -/
inductive Builtin.HandsOn (before : Context) (value : Value) :
    Builtin → List Value → Context → Prop where
  | readAt {target index : Value} {place : Place} :
      target.placeAt? before.store index = some place → before.at? place = some value →
      HandsOn before value .readAt [target, index] before
  | removeLast {address : Address} :
      (before.store.items address).back? = some value →
      HandsOn before value .removeLast [.list address]
        { before with store := (Effect.removeLast address).apply before.store }
  | append {address : Address} {given : List Value} :
      value = .list address →
      HandsOn before value .append (value :: given)
        { before with store := (Effect.appendItems address given).apply before.store }
  | writeAt {index written : Value} {line : Nat} {effect : Effect} :
      value.writeIndex before.store index written line = .ok effect →
      HandsOn before value .writeAt [value, index, written]
        { before with store := effect.apply before.store }

/-- The state after the body of a function has been left. -/
def Context.left (context : Context) : Context :=
  { context with callDepth := context.callDepth - 1, scopes := context.scopes.pop }

/-- An expression with one more unit of fuel gives a container that it does not make. -/
inductive Expr.HandsOn (fuel : Nat) (before : Context) (value : Value) :
    Expr → Context → Prop where
  | var {name : String} {line : Nat} :
      before.at? (.name name) = some value → HandsOn fuel before value (.var name line) before
  | left {op : LogicalOp} {left right : Expr} {line : Nat} {after : Context} :
      eval fuel left before = .ok value after → op.decides value = true →
      HandsOn fuel before value (.logical op left right line) after
  | right {op : LogicalOp} {left right : Expr} {line : Nat} {undecided : Value}
      {middle after : Context} :
      eval fuel left before = .ok undecided middle → op.decides undecided = false →
      eval fuel right middle = .ok value after →
      HandsOn fuel before value (.logical op left right line) after
  | index {target position : Expr} {line : Nat} {container index : Value} {middle after : Context}
      {place : Place} :
      eval fuel target before = .ok container middle →
      eval fuel position middle = .ok index after →
      container.placeAt? after.store index = some place → after.at? place = some value →
      HandsOn fuel before value (.index target position line) after
  | property {target : Expr} {name : String} {line : Nat} {container : Value} {after : Context}
      {place : Place} :
      eval fuel target before = .ok container after →
      container.placeOf? name = some place → after.at? place = some value →
      HandsOn fuel before value (.property target name line) after
  | builtin {name : String} {arguments : List Expr} {line : Nat} {builtin : Builtin}
      {values : List Value} {middle after : Context} :
      Builtin.ofName? name = some builtin →
      evalAll (eval fuel) arguments before = .ok values middle →
      builtin.HandsOn middle value values after →
      HandsOn fuel before value (.call name arguments line) after
  | function {name : String} {arguments : List Expr} {line returnLine : Nat} {function : Function}
      {values : List Value} {opened start ended : Context} :
      Opens fuel (.call name arguments line) before function values opened →
      defineAll (function.parameters.zip values) opened = .ok () start →
      execBlock (exec fuel) function.body start = .ok (.returned value returnLine) ended →
      HandsOn fuel before value (.call name arguments line) ended.left

variable {fuel : Nat} {expr : Expr} {value : Value} {address : Address} {before after : Context}

namespace Builtin

variable {builtin : Builtin} {arguments : List Value} {line : Nat} {draw : Float}
  {effect : Effect}

theorem HandsOn.ne_random (h : builtin.HandsOn before value arguments after) :
    builtin ≠ .random := by
  cases h <;> nofun

theorem handsOn_of_reads {target index : Value} (h : value.address? = some address)
    (hread : reads (target.readIndex before.store index line) = .ok (value, effect)) :
    HandsOn before value .readAt [target, index]
      { before with store := effect.apply before.store } := by
  cases hvalue : target.readIndex before.store index line with
  | error raised =>
      rw [hvalue] at hread
      cases hread
  | ok found =>
      rw [hvalue] at hread
      cases hread
      obtain ⟨place, hplace, hat⟩ := (Value.readIndex_eq_reference h).mp hvalue
      exact .readAt hplace hat

theorem handsOn_of_removeLast {target : Value} (draw : Float) (h : value.address? = some address)
    (hresult : removeLast.apply [target] line draw before.store = .ok (value, effect)) :
    HandsOn before value .removeLast [target]
      { before with store := effect.apply before.store } := by
  cases target with
  | list other =>
      obtain ⟨hlast, rfl⟩ := Prod.mk.inj (Except.ok.inj hresult)
      exact .removeLast ((Value.getD_null_eq_reference h).mp hlast)
  | _ => cases hresult

theorem handsOn_of_append {target : Value} {given : List Value} (draw : Float)
    (hresult : append.apply (target :: given) line draw before.store = .ok (value, effect)) :
    HandsOn before value .append (target :: given)
      { before with store := effect.apply before.store } := by
  cases target with
  | list other =>
      cases hresult
      exact .append rfl
  | _ => cases hresult

theorem handsOn_of_writeAt {target index written : Value} (draw : Float)
    (hresult : writeAt.apply [target, index, written] line draw before.store =
      .ok (value, effect)) :
    HandsOn before value .writeAt [target, index, written]
      { before with store := effect.apply before.store } := by
  change (target.writeIndex before.store index written line).map _ = .ok (value, effect) at hresult
  cases hwrite : target.writeIndex before.store index written line with
  | error halt =>
      rw [hwrite] at hresult
      cases hresult
  | ok wrote =>
      rw [hwrite] at hresult
      cases hresult
      exact .writeAt hwrite

/-- Only four of the built-in functions can give a container. -/
theorem handsOn_of_apply (h : value.address? = some address)
    (hresult : builtin.apply arguments line draw before.store = .ok (value, effect)) :
    builtin.HandsOn before value arguments { before with store := effect.apply before.store } := by
  have hplain {result : Except Halt (Value × Effect)}
      (hgives : Gives (ResultCarries fun value => value.address? = none) result)
      (hresult : result = .ok (value, effect)) : False := by
    have hnone : value.address? = none := (hgives _ hresult).1
    cases hnone.symm.trans h
  unfold apply at hresult
  split at hresult
  all_goals first
    | exact handsOn_of_reads h hresult
    | exact handsOn_of_removeLast draw h hresult
    | exact handsOn_of_append draw hresult
    | exact handsOn_of_writeAt draw hresult
    | exact absurd hresult (hplain (gives_only id rfl))
    | exact absurd hresult (hplain (gives_reads (Value.gives_number id _ _)))
    | exact absurd hresult (hplain (gives_powerOf id _ _ line))
    | exact absurd hresult (hplain (gives_reads (gives_randomOf id _ line draw)))
    | cases hresult

end Builtin

theorem exists_effect_of_callBuiltin {builtin : Builtin} {arguments : List Value} {line : Nat}
    (h : callBuiltin builtin arguments line before = .ok value after) :
    ∃ effect, builtin.apply arguments line before.random.next before.store = .ok (value, effect) ∧
      (builtin ≠ .random → after = { before with store := effect.apply before.store }) := by
  cases haccepts : builtin.arity.accepts arguments.length with
  | false =>
      rw [callBuiltin_of_refused haccepts] at h
      cases h
  | true =>
      rw [callBuiltin_of_accepted haccepts] at h
      cases happly : builtin.apply arguments line before.random.next before.store with
      | error halt =>
          rw [happly] at h
          cases halt <;> cases h
      | ok result =>
          obtain ⟨given, effect⟩ := result
          rw [happly] at h
          cases h
          exact ⟨effect, rfl, fun hrandom => by rw [if_neg hrandom]⟩

/-- A call of a built-in function gives a container exactly if it hands it on. -/
theorem callBuiltin_eq_reference {builtin : Builtin} {arguments : List Value} {line : Nat}
    (h : value.address? = some address) :
    callBuiltin builtin arguments line before = .ok value after ↔
      builtin.HandsOn before value arguments after := by
  constructor
  · intro hresult
    obtain ⟨effect, happly, hafter⟩ := exists_effect_of_callBuiltin hresult
    have hhands := Builtin.handsOn_of_apply h happly
    rw [hafter hhands.ne_random]
    exact hhands
  · intro hhands
    cases hhands with
    | readAt hplace hat =>
        rw [callBuiltin_of_accepted rfl, Builtin.apply,
          (Value.readIndex_eq_reference h).mpr ⟨_, hplace, hat⟩]
        rfl
    | removeLast hlast =>
        rw [callBuiltin_of_accepted rfl, Builtin.apply, hlast]
        rfl
    | append hvalue =>
        subst hvalue
        rw [callBuiltin_of_accepted (by simp [Builtin.arity, Arity.accepts]), Builtin.apply]
        rfl
    | writeAt hwrite =>
        rw [callBuiltin_of_accepted rfl, Builtin.apply,
          Value.writeIndex_eq_ok.mpr (Value.writeIndex_eq_ok.mp hwrite)]
        rfl

theorem UnaryOp.apply_ne_reference {op : UnaryOp} {operand : Value} {line : Nat}
    (h : value.address? = some address) : op.apply operand line ≠ .ok value := fun hresult =>
  nomatch (op.gives_apply id operand line value hresult).symm.trans h

theorem BinaryOp.apply_ne_reference {op : BinaryOp} {left right : Value} {line : Nat}
    {store : Store} (h : value.address? = some address) :
    op.apply store left right line ≠ .ok value := fun hresult =>
  nomatch (op.gives_apply id left right line value hresult).symm.trans h

theorem toResult_eq_reference {flow : Flow} (h : value.address? = some address) :
    flow.toResult before = .ok value after ↔
      ∃ line, flow = .returned value line ∧ before = after := by
  cases flow with
  | normal =>
      simp only [Flow.toResult, pure_apply, reduceCtorEq, false_and, exists_false, iff_false]
      intro hnull
      cases hnull
      cases h
  | returned returned line => simp [Flow.toResult]
  | _ => simp [Flow.toResult, raise]

theorem enclosed_eq_ok {α : Type} {body : Action α} {result : α} :
    deeper (withScope body) before = .ok result after ↔
      ∃ ended, body before.entered = .ok result ended ∧ ended.left = after := by
  unfold deeper withScope
  cases hbody : body before.entered <;> rw [Context.entered] at hbody <;>
    simp [hbody, Context.left]

theorem runBody_eq_reference {function : Function} {values : List Value}
    (h : value.address? = some address) :
    runBody (exec fuel) function values before = .ok value after ↔
      ∃ line start ended,
        defineAll (function.parameters.zip values) before.entered = .ok () start ∧
        execBlock (exec fuel) function.body start = .ok (.returned value line) ended ∧
        ended.left = after := by
  unfold runBody
  constructor
  · intro hresult
    obtain ⟨flow, left, hbody, hflow⟩ := bind_eq_ok.mp hresult
    obtain ⟨ended, hended, rfl⟩ := enclosed_eq_ok.mp hbody
    obtain ⟨_, start, hdefine, hblock⟩ := bind_eq_ok.mp hended
    obtain ⟨line, rfl, hafter⟩ := (toResult_eq_reference h).mp hflow
    exact ⟨line, start, ended, hdefine, hblock, hafter⟩
  · rintro ⟨line, start, ended, hdefine, hblock, rfl⟩
    refine bind_eq_ok.mpr
      ⟨.returned value line, ended.left, enclosed_eq_ok.mpr ⟨ended, ?_, rfl⟩, rfl⟩
    exact bind_eq_ok.mpr ⟨(), start, hdefine, hblock⟩

theorem callFunction_eq_ok {exec : Executor} {function : Function} {values : List Value}
    (line : Nat) :
    callFunction exec function values line before = .ok value after ↔
      values.length = function.parameters.length ∧ before.callDepth < before.config.maxCallDepth ∧
        runBody exec function values before = .ok value after := by
  by_cases hcount : values.length = function.parameters.length
  · rcases Nat.lt_or_ge before.callDepth before.config.maxCallDepth with hroom | hfull
    · simp [callFunction_of_room line hcount hroom, hcount, hroom]
    · simp [callFunction_of_full line hcount hfull, Nat.not_lt.mpr hfull]
  · simp [callFunction_of_miscount line hcount, hcount]

theorem evalCall_eq_reference {name : String} {arguments : List Expr} {line : Nat}
    (h : value.address? = some address) :
    evalCall (eval fuel) (exec fuel) name arguments line before = .ok value after ↔
      (Expr.call name arguments line).HandsOn fuel before value after := by
  unfold evalCall
  cases hname : Builtin.ofName? name with
  | some builtin =>
      constructor
      · intro hresult
        obtain ⟨values, middle, hvalues, hcall⟩ := bind_eq_ok.mp hresult
        exact .builtin hname hvalues ((callBuiltin_eq_reference h).mp hcall)
      · intro hhands
        cases hhands with
        | builtin hname' hvalues hhands =>
            cases hname.symm.trans hname'
            exact bind_eq_ok.mpr ⟨_, _, hvalues, (callBuiltin_eq_reference h).mpr hhands⟩
        | function hopens =>
            cases hopens with
            | body hnone => cases hname.symm.trans hnone
  | none =>
      constructor
      · intro hresult
        obtain ⟨function, found, hfind, hrest⟩ := bind_eq_ok.mp hresult
        obtain ⟨hfunction, rfl⟩ := findFunction_eq_ok.mp hfind
        obtain ⟨values, middle, hvalues, hcall⟩ := bind_eq_ok.mp hrest
        obtain ⟨hcount, hroom, hbody⟩ := (callFunction_eq_ok line).mp hcall
        obtain ⟨_, start, ended, hdefine, hblock, rfl⟩ := (runBody_eq_reference h).mp hbody
        exact .function (.body hname hfunction hvalues hcount hroom) hdefine hblock
      · intro hhands
        cases hhands with
        | builtin hname' => cases hname.symm.trans hname'
        | function hopens hdefine hblock =>
            cases hopens with
            | body _ hfunction hvalues hcount hroom =>
                have hbody := (runBody_eq_reference h).mpr ⟨_, _, _, hdefine, hblock, rfl⟩
                have hcall := (callFunction_eq_ok line).mpr ⟨hcount, hroom, hbody⟩
                refine bind_eq_ok.mpr ⟨_, before, findFunction_eq_ok.mpr ⟨hfunction, rfl⟩, ?_⟩
                exact bind_eq_ok.mpr ⟨_, _, hvalues, hcall⟩

/-- An expression that is no literal gives a container exactly if it hands it on. -/
theorem eval_eq_reference (h : value.address? = some address) (hmakes : expr.makes? = none) :
    eval (fuel + 1) expr before = .ok value after ↔ expr.HandsOn fuel before value after := by
  rw [eval_succ]
  cases expr with
  | literal constant line =>
      refine ⟨fun hresult => ?_, nofun⟩
      cases hresult
      cases constant <;> cases h
  | var name line =>
      constructor
      · intro hresult
        obtain ⟨hvalue, rfl⟩ := lookup_eq_ok.mp hresult
        exact .var hvalue
      · rintro ⟨hvalue⟩
        exact lookup_eq_ok.mpr ⟨hvalue, rfl⟩
  | unary op operand line =>
      refine ⟨fun hresult => ?_, nofun⟩
      obtain ⟨_, middle, -, hresult⟩ := bind_eq_ok.mp hresult
      obtain ⟨happly, -⟩ := ofExcept_eq_ok.mp hresult
      exact absurd happly (UnaryOp.apply_ne_reference h)
  | binary op left right line =>
      refine ⟨fun hresult => ?_, nofun⟩
      obtain ⟨_, middle, -, hresult⟩ := bind_eq_ok.mp hresult
      obtain ⟨_, last, -, hresult⟩ := bind_eq_ok.mp hresult
      obtain ⟨happly, -⟩ := ofExcept_eq_ok.mp hresult
      exact absurd happly (BinaryOp.apply_ne_reference h)
  | logical op left right line =>
      constructor
      · intro hresult
        obtain ⟨decided, middle, hleft, hresult⟩ := bind_eq_ok.mp hresult
        cases hdecides : op.decides decided with
        | true =>
            rw [if_pos hdecides] at hresult
            cases hresult
            exact .left hleft hdecides
        | false =>
            rw [if_neg (by simp [hdecides])] at hresult
            exact .right hleft hdecides hresult
      · intro hhands
        cases hhands with
        | left hleft hdecides =>
            refine bind_eq_ok.mpr ⟨value, after, hleft, ?_⟩
            rw [if_pos hdecides]
            rfl
        | right hleft hdecides hright =>
            refine bind_eq_ok.mpr ⟨_, _, hleft, ?_⟩
            rw [if_neg (by simp [hdecides])]
            exact hright
  | list | record => cases hmakes
  | index target position line =>
      constructor
      · intro hresult
        obtain ⟨container, middle, htarget, hresult⟩ := bind_eq_ok.mp hresult
        obtain ⟨index, last, hindex, hresult⟩ := bind_eq_ok.mp hresult
        obtain ⟨hread, rfl⟩ := ofExcept_eq_ok.mp hresult
        obtain ⟨place, hplace, hat⟩ := (Value.readIndex_eq_reference h).mp hread
        exact .index htarget hindex hplace hat
      · intro hhands
        cases hhands with
        | index htarget hindex hplace hat =>
            refine bind_eq_ok.mpr ⟨_, _, htarget, bind_eq_ok.mpr ⟨_, _, hindex, ?_⟩⟩
            exact ofExcept_eq_ok.mpr ⟨(Value.readIndex_eq_reference h).mpr ⟨_, hplace, hat⟩, rfl⟩
  | property target name line =>
      constructor
      · intro hresult
        obtain ⟨container, middle, htarget, hresult⟩ := bind_eq_ok.mp hresult
        obtain ⟨hread, rfl⟩ := ofExcept_eq_ok.mp hresult
        obtain ⟨place, hplace, hat⟩ := (Value.readProperty_eq_reference h).mp hread
        exact .property htarget hplace hat
      · intro hhands
        cases hhands with
        | property htarget hplace hat =>
            refine bind_eq_ok.mpr ⟨_, _, htarget, ofExcept_eq_ok.mpr ⟨?_, rfl⟩⟩
            exact (Value.readProperty_eq_reference h).mpr ⟨_, hplace, hat⟩
  | call name arguments line => exact evalCall_eq_reference h

end Bhasha
