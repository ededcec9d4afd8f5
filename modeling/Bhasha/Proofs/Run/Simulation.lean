import Bhasha.Proofs.Run.Correspondence
import Bhasha.Proofs.Run.Rounds

/-!
# Corresponding runs

A program without the definitions of hidden names tracks the program itself, from any states that
correspond, provided that only names of built-in functions are hidden: a call of such a name never
looks for a function of the program.  The proof goes through the layers of the evaluator, one lemma
for each function of it.
-/

namespace Bhasha

variable {α : Type} {image : Address → Address} {hidden : String → Bool} {size : Nat}

/-- The flow with the image of the address in its value. -/
def Flow.rename (image : Address → Address) : Flow → Flow
  | normal => normal
  | broke line => broke line
  | continued line => continued line
  | returned value line => returned (value.rename image) line

/-- All values of a list hold only addresses inside. -/
def AllWithin (inside : Address → Prop) (values : List Value) : Prop :=
  ∀ value ∈ values, value.Within inside

theorem Value.Within.grow {value : Value} (h : value.Within (· < size)) {larger : Nat}
    (hle : size ≤ larger) : value.Within (· < larger) :=
  h.mono fun _ haddress => Nat.lt_of_lt_of_le haddress hle

theorem AllWithin.grow {values : List Value} (h : AllWithin (· < size) values) {larger : Nat}
    (hle : size ≤ larger) : AllWithin (· < larger) values :=
  fun value hvalue => (h value hvalue).grow hle

theorem Table.EntriesWithin.grow {fields : Table Value} (h : fields.EntriesWithin (· < size))
    {larger : Nat} (hle : size ≤ larger) : fields.EntriesWithin (· < larger) :=
  fun entry hentry => (h entry hentry).grow hle

theorem Flow.Within.grow {flow : Flow} (h : flow.Within (· < size)) {larger : Nat}
    (hle : size ≤ larger) : flow.Within (· < larger) :=
  fun value line hflow => (h value line hflow).grow hle

theorem LogicalOp.decides_rename (op : LogicalOp) (value : Value) :
    op.decides (value.rename image) = op.decides value := by
  cases op <;> simp [decides]

theorem Flow.afterRound_rename (image : Address → Address) (flow : Flow) :
    (flow.rename image).afterRound = flow.afterRound.map (·.rename image) := by
  cases flow <;> rfl

open Action

theorem tracks_toResult {flow : Flow} (h : flow.Within (· < size)) :
    Tracks image hidden size (·.rename image) Value.Within flow.toResult
      (flow.rename image).toResult := by
  cases flow with
  | normal => exact tracks_pure fun _ _ => Value.within_of_plain rfl
  | returned value line => exact tracks_pure fun _ hle => (h value line rfl).grow hle
  | broke line => exact tracks_raise .breakOutsideLoop line
  | continued line => exact tracks_raise .continueOutsideLoop line

theorem tracks_finish (flow : Flow) :
    Tracks image hidden size (·.map (·.rename image))
      (fun inside output => ∀ value ∈ output, value.Within inside) flow.finish
      (flow.rename image).finish := by
  cases flow with
  | normal =>
      intro left right hstart _
      unfold Flow.finish
      simp only [Flow.rename, hstart.output]
      exact .ok { hstart with output := by simp, printed := by simp } (Nat.le_refl _)
        hstart.printed
  | broke line => exact tracks_raise .breakOutsideLoop line
  | continued line => exact tracks_raise .continueOutsideLoop line
  | returned value line => exact tracks_raise .returnOutsideFunction line

theorem tracks_normal {change : α → α} {holds : (Address → Prop) → α → Prop}
    {first second : Action α} (h : Tracks image hidden size change holds first second) :
    Tracks image hidden size (·.rename image) Flow.Within (first >>= fun _ => pure .normal)
      (second >>= fun _ => pure .normal) :=
  h.bind fun _ _ _ _ => tracks_pure fun _ _ => flow_within_of_plain nofun

theorem tracks_noteDraw (builtin : Builtin) :
    Tracks image hidden size id Unrestricted builtin.noteDraw builtin.noteDraw := by
  unfold Builtin.noteDraw
  by_cases hrandom : builtin = .random
  · rw [if_pos hrandom]
    exact tracks_modify fun _ _ hstart _ => ⟨{ hstart with random := by rw [hstart.random] }, rfl⟩
  · rw [if_neg hrandom]
    exact tracks_pure fun _ _ => trivial

theorem tracks_callBuiltin (builtin : Builtin) {arguments : List Value} (line : Nat)
    (harguments : AllWithin (· < size) arguments) :
    Tracks image hidden size (·.rename image) Value.Within (callBuiltin builtin arguments line)
      (callBuiltin builtin (arguments.map (·.rename image)) line) := by
  unfold callBuiltin
  rw [List.length_map]
  by_cases haccepts : builtin.arity.accepts arguments.length = true
  · rw [if_pos haccepts, if_pos haccepts]
    refine tracks_nextDraw.bind fun larger draw hle _ => ?_
    have happly : Tracks image hidden larger (·.rename image) Value.Within
        (writing (builtin.apply arguments line draw))
        (writing (builtin.apply (arguments.map (·.rename image)) line draw)) := by
      apply tracks_writing
      intro left right hstores hsize
      have hinside := harguments.grow (Nat.le_trans hle hsize)
      have hcarries := builtin.gives_apply hstores.closed.passesOn line draw hinside
      exact ⟨Builtin.apply_rename hstores hinside builtin line draw,
        hcarries.mono fun _ h => ⟨h.1, h.2.within⟩⟩
    refine happly.bind fun _ result _ hresult => (tracks_noteDraw builtin).bind fun _ _ hle _ => ?_
    exact tracks_pure fun _ hle' => hresult.grow (Nat.le_trans hle hle')
  · rw [if_neg haccepts, if_neg haccepts]
    unfold Builtin.miscount
    rw [List.length_map]
    exact fun left right hstart _ => .fault hstart (Nat.le_refl _)

theorem tracks_findFunction {name : String} (hname : hidden name = false) (line : Nat) :
    Tracks image hidden size (·.without hidden) Unrestricted (findFunction name line)
      (findFunction name line) := by
  intro left right hstart _
  unfold findFunction
  rw [hstart.functions, Table.get?_map, Table.get?_without hname]
  cases left.functions.get? name with
  | some function => exact .ok hstart (Nat.le_refl _) trivial
  | none => exact .fault hstart (Nat.le_refl _)

theorem tracks_addFunction {name : String} (hname : hidden name = false) (function : Function) :
    Tracks image hidden size id Unrestricted
      (modify fun context =>
        { context with functions := context.functions.insert name function })
      (modify fun context =>
        { context with functions := context.functions.insert name (function.without hidden) }) := by
  apply tracks_modify
  intro left right hstart _
  refine ⟨{ hstart with functions := ?_ }, rfl⟩
  rw [hstart.functions, Table.insert_map, Table.insert_without hname]

/-- The definition of a hidden name changes nothing on the right. -/
theorem tracks_hidden {name : String} (hname : hidden name = true) (function : Function) :
    Tracks image hidden size id Unrestricted
      (modify fun context =>
        { context with functions := context.functions.insert name function }) (pure ()) := by
  intro left right hstart _
  refine .ok { hstart with functions := ?_ } (Nat.le_refl _) trivial
  rw [Table.insert_hidden hname]
  exact hstart.functions

theorem tracks_defineAll {bindings : List (String × Value)}
    (h : ∀ binding ∈ bindings, binding.2.Within (· < size)) :
    Tracks image hidden size id Unrestricted (defineAll bindings)
      (defineAll (bindings.map fun binding => (binding.1, binding.2.rename image))) := by
  induction bindings generalizing size with
  | nil => exact tracks_pure fun _ _ => trivial
  | cons binding rest ih =>
      rw [List.forall_mem_cons] at h
      refine (tracks_define h.1 binding.1).bind fun larger _ hle _ => ih ?_
      exact fun other hother => (h.2 other hother).grow hle

section

variable {condition condition' : Action Value} {body body' : Action Flow}

theorem tracks_nextRound {next next' : Action Flow} {flow : Flow} (hflow : flow.Within (· < size))
    (hnext : Tracks image hidden size (·.rename image) Flow.Within next next') :
    Tracks image hidden size (·.rename image) Flow.Within (nextRound next flow)
      (nextRound next' (flow.rename image)) := by
  unfold nextRound
  rw [Flow.afterRound_rename]
  cases hlast : flow.afterRound with
  | none => exact hnext
  | some last => exact tracks_pure fun _ hle => (hflow.afterRound hlast).grow hle

variable (hbody : Tracks image hidden size (·.rename image) Flow.Within body body')

include hbody

theorem tracks_whileRounds
    (hcondition : Tracks image hidden size (·.rename image) Value.Within condition condition')
    (rounds : Nat) :
    Tracks image hidden size (·.rename image) Flow.Within (whileRounds condition body rounds)
      (whileRounds condition' body' rounds) := by
  induction rounds with
  | zero => exact fun _ _ _ _ => .outOfFuel fun _ => rfl
  | succ rounds ih =>
      rw [whileRounds_succ, whileRounds_succ]
      refine hcondition.bind fun larger value hle _ => ?_
      rw [Value.truthy_rename]
      by_cases htruthy : value.truthy = true
      · rw [if_pos htruthy, if_pos htruthy]
        refine (hbody.of_le hle).bind fun largest flow hle' hflow => ?_
        exact tracks_nextRound hflow (ih.of_le (Nat.le_trans hle hle'))
      · rw [if_neg htruthy, if_neg htruthy]
        exact tracks_pure fun _ _ => flow_within_of_plain nofun

theorem tracks_rangeRounds (name : String) (bound step : Float) (rounds : Nat) (counter : Float) :
    Tracks image hidden size (·.rename image) Flow.Within
      (rangeRounds name bound step body rounds counter)
      (rangeRounds name bound step body' rounds counter) := by
  induction rounds generalizing counter with
  | zero => exact fun _ _ _ _ => .outOfFuel fun _ => rfl
  | succ rounds ih =>
      rw [rangeRounds_succ, rangeRounds_succ]
      by_cases hin : inRange bound step counter = true
      · rw [if_pos hin, if_pos hin]
        have hcounter : (Value.number counter).Within (· < size) := Value.within_of_plain rfl
        have hround : Tracks image hidden size (·.rename image) Flow.Within
            (do define name (.number counter); body)
            (do define name (.number counter); body') :=
          (tracks_define hcounter name).bind fun _ _ hle _ => hbody.of_le hle
        exact hround.bind fun _ flow hle hflow => tracks_nextRound hflow ((ih _).of_le hle)
      · rw [if_neg hin, if_neg hin]
        exact tracks_pure fun _ _ => flow_within_of_plain nofun

end

section

variable {eval eval' : Evaluator} {exec exec' : Executor}

section

variable (heval : ∀ size expr,
  Tracks image hidden size (·.rename image) Value.Within (eval expr) (eval' expr))

include heval

theorem tracks_evalAll (exprs : List Expr) :
    Tracks image hidden size (·.map (·.rename image)) AllWithin (evalAll eval exprs)
      (evalAll eval' exprs) := by
  induction exprs generalizing size with
  | nil => exact tracks_pure fun _ _ => List.forall_mem_nil _
  | cons expr rest ih =>
      refine (heval size expr).bind fun _ value _ hvalue => ih.bind fun _ values hle hvalues => ?_
      apply tracks_pure
      intro largest hle'
      exact List.forall_mem_cons.mpr ⟨hvalue.grow (Nat.le_trans hle hle'), hvalues.grow hle'⟩

theorem tracks_evalEntries (entries : List (String × Expr)) {fields : Table Value}
    (hfields : fields.EntriesWithin (· < size)) :
    Tracks image hidden size (·.map (·.rename image)) Table.EntriesWithin
      (evalEntries eval fields entries)
      (evalEntries eval' (fields.map (·.rename image)) entries) := by
  induction entries generalizing size fields with
  | nil => exact tracks_pure fun _ hle => hfields.grow hle
  | cons entry rest ih =>
      refine (heval size entry.2).bind fun larger value hle hvalue => ?_
      rw [Table.insert_map]
      exact ih ((hfields.grow hle).insert hvalue entry.1)

theorem tracks_evalNumber (expr : Expr) (line : Nat) :
    Tracks image hidden size id Unrestricted (evalNumber eval expr line)
      (evalNumber eval' expr line) := by
  refine (heval size expr).bind fun larger value _ _ => ?_
  rw [Value.asNumber_rename]
  refine tracks_ofExcept ?_ fun _ _ _ _ => trivial
  cases value.asNumber line <;> rfl

theorem tracks_evalStep (step : Option Expr) (line : Nat) :
    Tracks image hidden size id Unrestricted (evalStep eval step line)
      (evalStep eval' step line) := by
  cases step with
  | none => exact tracks_pure fun _ _ => trivial
  | some expr => exact tracks_evalNumber heval expr line

theorem tracks_evalReturned (value : Option Expr) :
    Tracks image hidden size (·.rename image) Value.Within (evalReturned eval value)
      (evalReturned eval' value) := by
  cases value with
  | none => exact tracks_pure fun _ _ => Value.within_of_plain rfl
  | some expr => exact heval size expr

end

/-- What is known of the statements inside: those that stay are tracked, and those that define
hidden names do nothing that the other run could see. -/
structure TracksStatements (image : Address → Address) (hidden : String → Bool)
    (exec exec' : Executor) : Prop where
  kept : ∀ size statement, statement.definesHidden hidden = false →
    Tracks image hidden size (·.rename image) Flow.Within (exec statement)
      (exec' (statement.without hidden))
  dropped : ∀ size statement, statement.definesHidden hidden = true →
    Tracks image hidden size (·.rename image) (fun _ flow => flow = .normal) (exec statement)
      (pure .normal)

section

variable (hexec : TracksStatements image hidden exec exec')

include hexec

theorem tracks_execBlock (block : List Stmt) :
    Tracks image hidden size (·.rename image) Flow.Within (execBlock exec block)
      (execBlock exec' (Stmt.withoutBlock hidden block)) := by
  induction block generalizing size with
  | nil => exact tracks_pure fun _ _ => flow_within_of_plain nofun
  | cons statement rest ih =>
      unfold Stmt.withoutBlock
      cases hdefines : statement.definesHidden hidden with
      | true =>
          simp only [if_true]
          -- What is left out on the right is as good as an action that does nothing.
          have hskipped : execBlock exec' (Stmt.withoutBlock hidden rest) =
              (pure Flow.normal >>= fun _ => execBlock exec' (Stmt.withoutBlock hidden rest)) := rfl
          rw [hskipped]
          refine (hexec.dropped size statement hdefines).bind fun larger flow _ hflow => ?_
          subst hflow
          exact ih
      | false =>
          refine (hexec.kept size statement hdefines).bind fun larger flow _ hflow => ?_
          cases flow with
          | normal => exact ih
          | broke line => exact tracks_pure fun _ hle => hflow.grow hle
          | continued line => exact tracks_pure fun _ hle => hflow.grow hle
          | returned value line => exact tracks_pure fun _ hle => hflow.grow hle

theorem tracks_runBody (function : Function) {arguments : List Value}
    (harguments : AllWithin (· < size) arguments) :
    Tracks image hidden size (·.rename image) Value.Within (runBody exec function arguments)
      (runBody exec' (function.without hidden) (arguments.map (·.rename image))) := by
  have hbindings : Tracks image hidden size id Unrestricted
      (defineAll (function.parameters.zip arguments))
      (defineAll (function.parameters.zip (arguments.map (·.rename image)))) := by
    rw [List.zip_map_right]
    exact tracks_defineAll fun binding hbinding => harguments _ (List.of_mem_zip hbinding).2
  have hbody : Tracks image hidden size (·.rename image) Flow.Within
      (do defineAll (function.parameters.zip arguments); execBlock exec function.body)
      (do
        defineAll (function.parameters.zip (arguments.map (·.rename image)))
        execBlock exec' (Stmt.withoutBlock hidden function.body)) :=
    hbindings.bind fun _ _ _ _ => tracks_execBlock hexec function.body
  exact hbody.withScope.deeper.bind fun _ _ _ hflow => tracks_toResult hflow

theorem tracks_callFunction (function : Function) {arguments : List Value} (line : Nat)
    (harguments : AllWithin (· < size) arguments) :
    Tracks image hidden size (·.rename image) Value.Within
      (callFunction exec function arguments line)
      (callFunction exec' (function.without hidden) (arguments.map (·.rename image)) line) := by
  intro left right hstart hsize
  have hbody := tracks_runBody hexec function harguments left right hstart hsize
  unfold callFunction
  simp only [hstart.config, hstart.callDepth, Function.without, List.length_map]
  split
  · exact .fault hstart (Nat.le_refl _)
  split
  · exact .fault hstart (Nat.le_refl _)
  · exact hbody

variable (heval : ∀ size expr,
    Tracks image hidden size (·.rename image) Value.Within (eval expr) (eval' expr))
  (hhidden : ∀ name, hidden name = true → (Builtin.ofName? name).isSome)

include heval hhidden

theorem tracks_evalCall (name : String) (arguments : List Expr) (line : Nat) :
    Tracks image hidden size (·.rename image) Value.Within
      (evalCall eval exec name arguments line) (evalCall eval' exec' name arguments line) := by
  unfold evalCall
  cases hbuiltin : Builtin.ofName? name with
  | some builtin =>
      exact (tracks_evalAll heval arguments).bind fun _ _ _ hvalues =>
        tracks_callBuiltin builtin line hvalues
  | none =>
      -- Only here does it matter which names are hidden.
      have hname : hidden name = false := by
        cases hcase : hidden name with
        | false => rfl
        | true => simpa [hbuiltin] using hhidden name hcase
      refine (tracks_findFunction hname line).bind fun _ function _ _ => ?_
      exact (tracks_evalAll heval arguments).bind fun _ _ _ hvalues =>
        tracks_callFunction hexec function line hvalues

theorem tracks_evalWith (expr : Expr) :
    Tracks image hidden size (·.rename image) Value.Within (evalWith eval exec expr)
      (evalWith eval' exec' expr) := by
  cases expr with
  | literal value line =>
      have hplain : value.toValue.rename image = value.toValue := by cases value <;> rfl
      have hpure : Tracks image hidden size (·.rename image) Value.Within (pure value.toValue)
          (pure (value.toValue.rename image)) :=
        tracks_pure fun _ _ => Value.within_of_plain (by cases value <;> rfl)
      rwa [hplain] at hpure
  | var name line => exact tracks_lookup name line
  | unary op operand line =>
      refine (heval size operand).bind fun _ value _ _ => ?_
      exact tracks_ofExcept (op.apply_rename image value line) fun _ _ =>
        op.gives_apply Value.within_of_plain value line
  | binary op left right line =>
      refine (heval size left).bind fun _ leftValue _ hleft => ?_
      refine (heval _ right).bind fun _ rightValue hle hright => tracks_reading ?_
      intro store store' hstores hsize
      have hleft' := hleft.grow (Nat.le_trans hle hsize)
      exact ⟨op.apply_rename hstores line hleft' (hright.grow hsize),
        op.gives_apply Value.within_of_plain leftValue rightValue line⟩
  | logical op left right line =>
      refine (heval size left).bind fun larger value _ hvalue => ?_
      rw [op.decides_rename]
      by_cases hdecides : op.decides value = true
      · rw [if_pos hdecides, if_pos hdecides]
        exact tracks_pure fun _ hle => hvalue.grow hle
      · rw [if_neg hdecides, if_neg hdecides]
        exact heval larger right
  | list elements line =>
      refine (tracks_evalAll heval elements).bind fun larger values _ hvalues => ?_
      have hitems : (values.map (·.rename image)).toArray =
          values.toArray.map (·.rename image) := by simp
      rw [hitems]
      exact tracks_add (.list values.toArray) .list (fun _ => rfl) (fun _ => rfl) hvalues
  | record entries line =>
      refine (tracks_evalEntries heval entries (List.forall_mem_nil _)).bind ?_
      intro larger fields _ hfields
      exact tracks_add (.record fields) .record (fun _ => rfl) (fun _ => rfl)
        (List.forall_mem_map.mpr hfields)
  | index target position line =>
      refine (heval size target).bind fun _ targetValue _ htarget => ?_
      refine (heval _ position).bind fun _ place hle hplace => tracks_reading ?_
      intro store store' hstores hsize
      have htarget' := htarget.grow (Nat.le_trans hle hsize)
      exact ⟨targetValue.readIndex_rename hstores line (hplace.grow hsize),
        Value.gives_readIndex hstores.closed.passesOn htarget' place⟩
  | property target name line =>
      refine (heval size target).bind fun _ targetValue _ htarget => tracks_reading ?_
      intro store store' hstores hsize
      exact ⟨targetValue.readProperty_rename hstores name line,
        Value.gives_readProperty hstores.closed.passesOn (htarget.grow hsize) name⟩
  | call name arguments line => exact tracks_evalCall hexec heval hhidden name arguments line

omit hexec heval hhidden in
theorem tracks_writingStatement {write write' : Store → Except Halt Effect}
    (h : ∀ left right : Store, left.RenamedTo image right → size ≤ left.size →
      write' right = (write left).map (·.rename image) ∧
        Gives (Effect.Within (· < left.size)) (write left)) :
    Tracks image hidden size (·.rename image) Flow.Within
      (writing fun store => (write store).map fun effect => (Flow.normal, effect))
      (writing fun store => (write' store).map fun effect => (Flow.normal, effect)) := by
  apply tracks_writing
  intro left right hstores hsize
  obtain ⟨hwrite, hgives⟩ := h left right hstores hsize
  refine ⟨?_, hgives.map fun _ heffect => ⟨flow_within_of_plain nofun, heffect⟩⟩
  rw [hwrite]
  cases write left <;> rfl

omit hhidden in
theorem tracks_execWith (rounds : Nat) {statement : Stmt}
    (hstatement : statement.definesHidden hidden = false) :
    Tracks image hidden size (·.rename image) Flow.Within (execWith eval exec rounds statement)
      (execWith eval' exec' rounds (statement.without hidden)) := by
  cases statement with
  | declare name value line =>
      exact (heval size value).bind fun _ _ _ hwritten =>
        tracks_normal (tracks_define hwritten name)
  | print value line =>
      exact (heval size value).bind fun _ _ _ hprinted => tracks_normal (tracks_print hprinted)
  | assign name value line =>
      exact (heval size value).bind fun _ _ _ hwritten =>
        tracks_normal (tracks_assign hwritten name line)
  | assignIndex name position value line =>
      refine (tracks_lookup name line).bind fun _ target _ htarget => ?_
      refine (heval _ position).bind fun _ index hle hindex => ?_
      refine (heval _ value).bind fun _ written hle' hwritten => tracks_writingStatement ?_
      intro store store' hstores hsize
      have htarget' := htarget.grow (Nat.le_trans hle (Nat.le_trans hle' hsize))
      have hindex' := hindex.grow (Nat.le_trans hle' hsize)
      have hwithin : Gives (Effect.Within (· < store.size))
          (target.writeIndex store index written line) :=
        (Value.gives_writeIndex htarget' (hwritten.grow hsize) index).mono fun _ h => h.within
      exact ⟨target.writeIndex_rename hstores written line hindex', hwithin⟩
  | assignProperty name property value line =>
      refine (tracks_lookup name line).bind fun _ target _ htarget => ?_
      refine (heval _ value).bind fun _ written hle hwritten => tracks_writingStatement ?_
      intro store store' hstores hsize
      have htarget' := htarget.grow (Nat.le_trans hle hsize)
      have hwithin : Gives (Effect.Within (· < store.size))
          (target.writeProperty property written line) :=
        (Value.gives_writeProperty htarget' (hwritten.grow hsize) property).mono fun _ h => h.within
      exact ⟨target.writeProperty_rename property written line, hwithin⟩
  | branch condition yes no line =>
      refine (heval size condition).bind fun _ value _ _ => ?_
      rw [Value.truthy_rename, Stmt.withoutOption_getD]
      by_cases htruthy : value.truthy = true
      · rw [if_pos htruthy, if_pos htruthy]
        exact tracks_execBlock hexec yes
      · rw [if_neg htruthy, if_neg htruthy]
        exact tracks_execBlock hexec (no.getD [])
  | loop condition body line =>
      have hrounds := tracks_whileRounds (tracks_execBlock hexec body) (heval size condition) rounds
      exact hrounds.withScope
  | range counter first bound step body line =>
      refine (tracks_evalNumber heval first line).bind fun _ start _ _ => ?_
      refine (tracks_evalNumber heval bound line).bind fun _ stop _ _ => ?_
      refine (tracks_evalStep heval step line).bind fun _ width _ _ => ?_
      apply Tracks.withScope
      exact tracks_rangeRounds (tracks_execBlock hexec body) counter stop width rounds start
  | define name parameters body line =>
      exact tracks_normal (tracks_addFunction hstatement ⟨name, parameters, body, line⟩)
  | giveBack value line =>
      refine (tracks_evalReturned heval value).bind fun _ returned _ hreturned => ?_
      apply tracks_pure
      intro larger hle other place hsame
      cases hsame
      exact hreturned.grow hle
  | leave line => exact tracks_pure fun _ _ => flow_within_of_plain nofun
  | proceed line => exact tracks_pure fun _ _ => flow_within_of_plain nofun
  | attempt body errorName handler line =>
      refine (tracks_execBlock hexec body).handling fun raised => Tracks.withScope ?_
      have hmessage : (Value.text raised.message).Within (· < size) := Value.within_of_plain rfl
      exact (tracks_define hmessage errorName).bind fun _ _ _ _ => tracks_execBlock hexec handler
  | expression value line => exact tracks_normal (heval size value)

end

end

section

variable (hhidden : ∀ name, hidden name = true → (Builtin.ofName? name).isSome)

include hhidden

theorem tracks_eval_exec (fuel : Nat) :
    (∀ size expr, Tracks image hidden size (·.rename image) Value.Within (eval fuel expr)
      (eval fuel expr)) ∧
    TracksStatements image hidden (exec fuel) (exec fuel) := by
  induction fuel with
  | zero =>
      refine ⟨fun _ _ _ _ _ _ => .outOfFuel fun _ => rfl, ⟨?_, ?_⟩⟩
      · exact fun _ _ _ _ _ _ _ => .outOfFuel fun _ => rfl
      · -- The right run needs no fuel here, but without hidden names there is no such statement.
        intro size statement hdefines left right hstart _
        refine .outOfFuel fun hnone => ?_
        simp [Stmt.definesHidden_eq_false hnone] at hdefines
  | succ fuel ih =>
      obtain ⟨heval, hexec⟩ := ih
      refine ⟨fun size => tracks_evalWith hexec heval hhidden, ⟨?_, ?_⟩⟩
      · exact fun size statement hkept => tracks_execWith hexec heval fuel hkept
      · intro size statement hdefines
        cases statement with
        | define name parameters body line =>
            have hnormal : Tracks image hidden size (·.rename image)
                (fun _ flow => flow = .normal) (exec (fuel + 1) (.define name parameters body line))
                (pure () >>= fun _ => pure .normal) :=
              (tracks_hidden hdefines ⟨name, parameters, body, line⟩).bind fun _ _ _ _ =>
                tracks_pure fun _ _ => rfl
            exact hnormal
        | _ => cases hdefines

/-- A program without the definitions of hidden names tracks the program itself. -/
theorem tracks_evaluate (program : Program) (fuel : Nat) :
    Tracks image hidden size (·.map (·.rename image))
      (fun inside output => ∀ value ∈ output, value.Within inside) (program.evaluate fuel)
      (Program.evaluate fuel (Stmt.withoutBlock hidden program)) :=
  (tracks_execBlock (tracks_eval_exec hhidden fuel).2 program).bind fun _ flow _ _ =>
    tracks_finish flow

end

end Bhasha
