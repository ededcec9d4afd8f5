import Bhasha.Proofs.Run.HandingOn
import Bhasha.Proofs.Run.References

/-!
# Assignments and arguments

An assignment puts the value of its expression at one place, and leaves all others as they were.  A
call binds each parameter to the value of its argument, before the body of the function begins.  So
the place or the parameter stands for the very container that the expression has given.
-/

namespace Bhasha

open Action

/-- The statement evaluates an expression whose value it puts somewhere. -/
def Stmt.isAssignment : Stmt → Bool
  | .declare .. | .assign .. | .assignIndex .. | .assignProperty .. => true
  | _ => false

/-- An assignment with one more unit of fuel comes to know its place and its value. -/
inductive Stmt.Assigns (fuel : Nat) (before : Context) :
    Stmt → Place → Value → Context → Prop where
  | declare {name : String} {expr : Expr} {line : Nat} {value : Value} {known : Context} :
      eval fuel expr before = .ok value known →
      Assigns fuel before (.declare name expr line) (.name name) value known
  | assign {name : String} {expr : Expr} {line : Nat} {value : Value} {known : Context} :
      eval fuel expr before = .ok value known →
      Assigns fuel before (.assign name expr line) (.name name) value known
  | assignIndex {name : String} {position expr : Expr} {line : Nat} {target index value : Value}
      {middle known : Context} {place : Place} :
      before.at? (.name name) = some target → eval fuel position before = .ok index middle →
      eval fuel expr middle = .ok value known → target.placeAt? known.store index = some place →
      Assigns fuel before (.assignIndex name position expr line) place value known
  | assignProperty {name property : String} {expr : Expr} {line : Nat} {target value : Value}
      {known : Context} {place : Place} :
      before.at? (.name name) = some target → eval fuel expr before = .ok value known →
      target.placeOf? property = some place →
      Assigns fuel before (.assignProperty name property expr line) place value known

/-- A built-in function puts what it has been given into a container that it has been given, and
gives this container. -/
inductive Builtin.Stores (before : Context) : Builtin → List Value → Value → Context → Prop where
  | append {address : Address} {given : List Value} {after : Context} :
      before.Appends address given after →
      Stores before .append (.list address :: given) (.list address) after
  | writeAt {target index written : Value} {place : Place} {after : Context} :
      target.placeAt? before.store index = some place → before.Puts place written after →
      Stores before .writeAt [target, index, written] target after

variable {fuel : Nat} {statement : Stmt} {flow : Flow} {value : Value} {name : String}
  {before known start after : Context}

theorem kindsStay_of_eval {expr : Expr} (h : eval fuel expr before = .ok value after) :
    before.store.KindsStay after.store :=
  (schedules_eval fuel expr).grows (.inl ⟨value, h⟩)

theorem writing_eq_ok {α : Type} {write : Store → Except Halt Effect} {result given : α} :
    writing (fun store => (write store).map fun effect => (result, effect)) before =
        .ok given after ↔
      ∃ effect, write before.store = .ok effect ∧ result = given ∧
        { before with store := effect.apply before.store } = after := by
  unfold writing
  cases hwrite : write before.store with
  | ok effect => simp [hwrite, Except.map]
  | error halt => cases halt <;> simp [hwrite, Except.map]

/-- An assignment that ends well has put the value of its expression at its place. -/
theorem assigns_of_exec (hbefore : before.Fits) (hassignment : statement.isAssignment = true)
    (h : exec (fuel + 1) statement before = .ok flow after) :
    flow = .normal ∧ ∃ place value known,
      statement.Assigns fuel before place value known ∧ known.Puts place value after := by
  cases statement with
  | declare name expr line =>
      obtain ⟨value, known, hvalue, hrest⟩ := bind_eq_ok.mp h
      cases hrest
      exact ⟨rfl, _, _, _, .declare hvalue, .bound known name value⟩
  | assign name expr line =>
      obtain ⟨value, known, hvalue, hrest⟩ := bind_eq_ok.mp h
      obtain ⟨_, last, hassign, hlast⟩ := bind_eq_ok.mp hrest
      obtain ⟨scopes, hscopes, rfl⟩ := assign_eq_ok.mp hassign
      cases hlast
      exact ⟨rfl, _, _, _, .assign hvalue, .rebound hscopes⟩
  | assignIndex name position expr line =>
      obtain ⟨target, _, hlookup, hrest⟩ := bind_eq_ok.mp h
      obtain ⟨htarget, rfl⟩ := lookup_eq_ok.mp hlookup
      obtain ⟨index, middle, hindex, hrest⟩ := bind_eq_ok.mp hrest
      obtain ⟨value, known, hvalue, hwrite⟩ := bind_eq_ok.mp hrest
      obtain ⟨effect, heffect, rfl, rfl⟩ := writing_eq_ok.mp hwrite
      have hfits : target.FitsIn before.store := Context.Fits.guarded.found hbefore htarget
      have hlater := (kindsStay_of_eval hindex).trans (kindsStay_of_eval hvalue)
      obtain ⟨place, hplace, hputs⟩ := Context.Puts.of_writeIndex (hfits.mono hlater) heffect
      exact ⟨rfl, _, _, _, .assignIndex htarget hindex hvalue hplace, hputs⟩
  | assignProperty name property expr line =>
      obtain ⟨target, _, hlookup, hrest⟩ := bind_eq_ok.mp h
      obtain ⟨htarget, rfl⟩ := lookup_eq_ok.mp hlookup
      obtain ⟨value, known, hvalue, hwrite⟩ := bind_eq_ok.mp hrest
      obtain ⟨effect, heffect, rfl, rfl⟩ := writing_eq_ok.mp hwrite
      have hfits : target.FitsIn before.store := Context.Fits.guarded.found hbefore htarget
      have hlater := kindsStay_of_eval hvalue
      obtain ⟨place, hplace, hputs⟩ := Context.Puts.of_writeProperty (hfits.mono hlater) heffect
      exact ⟨rfl, _, _, _, .assignProperty htarget hvalue hplace, hputs⟩
  | _ => cases hassignment

namespace Builtin

variable {target index written : Value} {effect : Effect} {line : Nat} {draw : Float}

theorem stores_of_append {given : List Value} (htarget : target.FitsIn before.store)
    (h : append.apply (target :: given) line draw before.store = .ok (value, effect)) :
    Stores before .append (target :: given) value
      { before with store := effect.apply before.store } := by
  cases target with
  | list address =>
      cases h
      exact .append (Context.appends htarget given)
  | _ => cases h

theorem stores_of_writeAt (htarget : target.FitsIn before.store)
    (h : writeAt.apply [target, index, written] line draw before.store = .ok (value, effect)) :
    Stores before .writeAt [target, index, written] value
      { before with store := effect.apply before.store } := by
  change (target.writeIndex before.store index written line).map _ = .ok (value, effect) at h
  cases hwrite : target.writeIndex before.store index written line with
  | error halt =>
      rw [hwrite] at h
      cases h
  | ok wrote =>
      rw [hwrite] at h
      cases h
      obtain ⟨place, hplace, hputs⟩ := Context.Puts.of_writeIndex htarget hwrite
      exact .writeAt hplace hputs

end Builtin

/-- What is appended to a list or written into a container stands there. -/
theorem stores_of_callBuiltin {builtin : Builtin} {values : List Value} {line : Nat}
    (hvalues : ∀ value ∈ values, value.FitsIn before.store)
    (hbuiltin : builtin = .append ∨ builtin = .writeAt)
    (h : callBuiltin builtin values line before = .ok value after) :
    builtin.Stores before values value after := by
  obtain ⟨effect, happly, hafter⟩ := exists_effect_of_callBuiltin h
  rcases hbuiltin with rfl | rfl
  · rw [hafter nofun]
    match values, happly with
    | target :: given, happly =>
        exact Builtin.stores_of_append (hvalues target List.mem_cons_self) happly
  · rw [hafter nofun]
    match values, happly with
    | [target, index, written], happly =>
        exact Builtin.stores_of_writeAt (hvalues target List.mem_cons_self) happly

/-- Expressions that are evaluated in turn give their values in turn. -/
theorem exists_eval_of_evalAll {exprs : List Expr} {values : List Value}
    (h : evalAll (eval fuel) exprs before = .ok values after) {index : Nat}
    (hvalue : values[index]? = some value) :
    ∃ expr begun ended, exprs[index]? = some expr ∧
      InTurn fuel (exprs.map .eval) before (.eval expr) begun ∧
      eval fuel expr begun = .ok value ended := by
  induction exprs generalizing before values index with
  | nil =>
      cases h
      cases hvalue
  | cons expr rest ih =>
      obtain ⟨first, middle, hfirst, hrest⟩ := bind_eq_ok.mp h
      obtain ⟨others, last, hothers, hlast⟩ := bind_eq_ok.mp hrest
      cases hlast
      cases index with
      | zero =>
          cases hvalue
          exact ⟨expr, before, middle, rfl, .first, hfirst⟩
      | succ index =>
          obtain ⟨found, begun, ended, hfound, hturn, heval⟩ := ih hothers hvalue
          exact ⟨found, begun, ended, hfound, .later (action_eval_eq_ok.mpr ⟨_, hfirst⟩) hturn,
            heval⟩

theorem at?_of_defineAll_of_notMem {bindings : List (String × Value)}
    (h : defineAll bindings before = .ok () after) (hname : name ∉ bindings.map Prod.fst) :
    after.at? (.name name) = before.at? (.name name) := by
  induction bindings generalizing before with
  | nil =>
      cases h
      rfl
  | cons binding rest ih =>
      rw [List.map_cons, List.mem_cons, not_or] at hname
      obtain ⟨hne, hrest⟩ := hname
      have hbound := (before.scopes.get?_define binding.1 name binding.2).trans (if_neg hne)
      exact (ih h hrest).trans hbound

/-- Of several values for one name, the last one stands. -/
theorem at?_of_defineAll {bindings : List (String × Value)}
    (h : defineAll bindings before = .ok () after) {index : Nat}
    (hbinding : bindings[index]? = some (name, value))
    (hlast : ∀ later, index < later → (bindings.map Prod.fst)[later]? ≠ some name) :
    after.at? (.name name) = some value := by
  induction bindings generalizing before index with
  | nil => cases hbinding
  | cons binding rest ih =>
      cases index with
      | zero =>
          cases hbinding
          have hnone : name ∉ rest.map Prod.fst := by
            intro hmem
            obtain ⟨later, hlater⟩ := List.mem_iff_getElem?.mp hmem
            exact hlast (later + 1) (Nat.succ_pos later) hlater
          have hrest : defineAll rest (before.bound name value) = .ok () after := h
          have hkept := at?_of_defineAll_of_notMem hrest hnone
          exact hkept.trans (Context.Puts.bound before name value).there
      | succ index =>
          have hrest : defineAll rest (before.bound binding.1 binding.2) = .ok () after := h
          exact ih hrest hbinding fun later hlater => hlast (later + 1) (Nat.succ_lt_succ hlater)

/-- A parameter stands for what the argument in its position has given when the body of the function
begins.  Of several parameters with one name, the last one does. -/
theorem exists_argument_of_opens {called : String} {arguments : List Expr} {line : Nat}
    {function : Function} {values : List Value} {opened : Context} {parameter : String}
    {index : Nat}
    (hopens : Opens fuel (.call called arguments line) before function values opened)
    (hdefine : defineAll (function.parameters.zip values) opened = .ok () start)
    (hparameter : function.parameters[index]? = some parameter)
    (hlast : ∀ later, index < later → function.parameters[later]? ≠ some parameter) :
    ∃ argument value begun ended, arguments[index]? = some argument ∧
      InTurn fuel (arguments.map .eval) before (.eval argument) begun ∧
      eval fuel argument begun = .ok value ended ∧ start.at? (.name parameter) = some value := by
  obtain @⟨_, _, _, _, _, _, middle, -, -, harguments, hcount, -⟩ := hopens
  have hinside : index < values.length := hcount ▸ (List.getElem?_eq_some_iff.mp hparameter).1
  have hvalue : values[index]? = some values[index] := List.getElem?_eq_getElem hinside
  have hbinding : (function.parameters.zip values)[index]? = some (parameter, values[index]) :=
    List.getElem?_zip_eq_some.mpr ⟨hparameter, hvalue⟩
  have hnames : (function.parameters.zip values).map Prod.fst = function.parameters :=
    List.map_fst_zip (Nat.le_of_eq hcount.symm)
  obtain ⟨argument, begun, ended, hargument, hturn, heval⟩ :=
    exists_eval_of_evalAll harguments hvalue
  refine ⟨argument, _, begun, ended, hargument, hturn, heval, ?_⟩
  refine at?_of_defineAll hdefine hbinding fun later hlater => ?_
  rw [hnames]
  exact hlast later hlater

end Bhasha
