import Bhasha.Eval
import Bhasha.Proofs.Builtin.Footprint

/-!
# The two checks of the number of arguments

A call asks the table of built-in functions whether the number of its arguments is right.  Most of
the functions ask again, each with a name, a number and a text of its own, and read their arguments
by position once they are satisfied.  The two checks agree: behind the check of the table no
function finds its own one failed or a position out of range, and a function that is applied without
the table fails on the same numbers of arguments and in the same words.
-/

namespace Bhasha

/-- A wrong number of arguments, as it is reported. -/
structure Mismatch where
  function : String
  expected : String
  found : Nat
  line : Nat
deriving DecidableEq

/-- The wrong number of arguments that a fault reports, if it reports one. -/
def Fault.mismatch? : Fault → Option Mismatch
  | ⟨.argumentCount function expected found, line⟩ => some ⟨function, expected.text, found, line⟩
  | _ => none

/-- How a built-in function checks for itself the number of its arguments. -/
inductive OwnCheck where
  | exactly (function : String) (count : Nat)
  /-- There has to be a first argument, which is split off. -/
  | first (function : String)
  | absent

namespace OwnCheck

/-- Checks the number of arguments. -/
def run (check : OwnCheck) (arguments : List Value) (line : Nat) : Except Mismatch Unit :=
  match check, arguments with
  | exactly function count, arguments =>
      if arguments.length = count then .ok ()
      else .error ⟨function, toString count, arguments.length, line⟩
  | first function, [] => .error ⟨function, "at least 1", 0, line⟩
  | first _, _ :: _ => .ok ()
  | absent, _ => .ok ()

/-- The name and the arity that a table would have for a check. -/
def entry? : OwnCheck → Option (String × Arity)
  | exactly function count => some (function, .exactly count)
  | first function => some (function, .atLeast 1)
  | absent => none

end OwnCheck

namespace Builtin

/-- The check that a built-in function makes itself. -/
def ownCheck : Builtin → OwnCheck
  | toNumber => .exactly "sankhya" 1
  | toText => .exactly "shabda" 1
  | truth => .exactly "tathya" 1
  | length => .exactly "lambai" 1
  | upper => .exactly "upari" 1
  | lower => .exactly "tala" 1
  | find => .exactly "khojne" 2
  | slice => .absent
  | join => .absent
  | append => .first "thapaune"
  | removeLast => .exactly "hataune" 1
  | readAt => .exactly "prapt" 2
  | writeAt => .exactly "sthapana" 3
  | round => .exactly "gol" 1
  | ceil => .exactly "mathi" 1
  | floor => .exactly "tala_math" 1
  | absolute => .exactly "mutlak" 1
  | power => .exactly "shakti" 2
  | squareRoot => .exactly "vargamul" 1
  | random => .absent
  | kind => .exactly "prakar" 1
  | greatest => .absent
  | least => .absent
  | read => .exactly "padhne" 0

/-- What a function does with an argument that has to be a list. -/
def onList (target : Value) (function : String) (line : Nat)
    (change : Address → Value × Effect) : Except Halt (Value × Effect) :=
  match target with
  | .list address => .ok (change address)
  | other => .error (.fault (.ofType (.notAList function other.type) line))

/-- The power of two values that have to be numbers. -/
def powerOf (base exponent : Value) (line : Nat) : Except Fault Value := do
  let base ← base.asNumber line
  let exponent ← exponent.asNumber line
  return .number (base.pow exponent)

/-- What a built-in function does behind its own check.  It reads its arguments by position, and
there is no result if it reads one that is not there. -/
def behindCheck (builtin : Builtin) (arguments : List Value) (line : Nat) (draw : Float)
    (store : Store) : Option (Except Halt (Value × Effect)) :=
  match builtin with
  | toNumber => arguments[0]?.map fun value => only (.number (value.toNumber store))
  | toText => arguments[0]?.map fun value => only (.text (value.display store))
  | truth => arguments[0]?.map fun value => only (.boolean value.truthy)
  | kind => arguments[0]?.map fun value => only (.text value.type.kindName)
  | length => arguments[0]?.map fun value => only (.number (Number.ofNat (lengthOf store value)))
  | upper => arguments[0]?.map fun value => only (.text (Text.toUpper (value.display store)))
  | lower => arguments[0]?.map fun value => only (.text (Text.toLower (value.display store)))
  | find => do
      let text ← arguments[0]?
      let needle ← arguments[1]?
      return only (.number (findIn (text.display store) (needle.display store)))
  | slice => some (only (.text (sliceOf store arguments)))
  | join => some (only (.text (joinTexts store arguments)))
  | append => arguments.head?.map fun target =>
      onList target "thapaune" line fun address =>
        (target, .appendItems address arguments.tail)
  | removeLast => arguments[0]?.map fun target =>
      onList target "hataune" line fun address =>
        ((store.items address).back?.getD .null, .removeLast address)
  | readAt => do
      let target ← arguments[0]?
      let index ← arguments[1]?
      return reads (target.readIndex store index line)
  | writeAt => do
      let target ← arguments[0]?
      let index ← arguments[1]?
      let value ← arguments[2]?
      return (target.writeIndex store index value line).map fun effect => (target, effect)
  | round => arguments[0]?.map fun value => onNumber value line Number.round
  | ceil => arguments[0]?.map fun value => onNumber value line Float.ceil
  | floor => arguments[0]?.map fun value => onNumber value line Float.floor
  | absolute => arguments[0]?.map fun value => onNumber value line Float.abs
  | squareRoot => arguments[0]?.map fun value => onNumber value line Float.sqrt
  | power => do
      let base ← arguments[0]?
      let exponent ← arguments[1]?
      return reads (powerOf base exponent line)
  | random => some (reads (randomOf arguments line draw))
  | greatest => some (reads ((greatestOf arguments line).map .number))
  | least => some (reads ((leastOf arguments line).map .number))
  | read => some (only (.text ""))

end Builtin

/-- A result that fails with a wrong number of arguments. -/
def FailsWith {α : Type} (mismatch : Mismatch) (result : Except Halt α) : Prop :=
  ∃ raised : Fault, result = .error (.fault raised) ∧ raised.mismatch? = some mismatch

/-- A result that reports no wrong number of arguments. -/
def Counted {α : Type} (result : Except Halt α) : Prop :=
  ∀ raised : Fault, result = .error (.fault raised) → raised.mismatch? = none

/-- What the table has to say about a number of arguments that it refuses. -/
def Builtin.tableMismatch (builtin : Builtin) (arguments : List Value) (line : Nat) : Mismatch :=
  ⟨builtin.name, builtin.arity.text, arguments.length, line⟩

/-- The check of the table and the check of a built-in function agree. -/
structure Builtin.ChecksAgree (builtin : Builtin) (arguments : List Value) (line : Nat) :
    Prop where
  /-- A function that is applied without the table checks for itself, and goes on from there. -/
  layers : ∀ draw store,
    match builtin.ownCheck.run arguments line with
    | .error mismatch => FailsWith mismatch (builtin.apply arguments line draw store)
    | .ok () => builtin.behindCheck arguments line draw store =
        some (builtin.apply arguments line draw store)
  called : ∀ eval exec expressions before after,
    evalAll eval expressions before = .ok arguments after →
      evalCall eval exec builtin.name expressions line before =
        callBuiltin builtin arguments line after
  refused : builtin.arity.accepts arguments.length = false → ∀ context, ∃ raised,
    callBuiltin builtin arguments line context = .fault raised context ∧
      raised.mismatch? = some (builtin.tableMismatch arguments line)
  accepted : builtin.arity.accepts arguments.length = true →
    builtin.ownCheck.run arguments line = .ok () ∧
      (∀ draw store, ∃ result, builtin.behindCheck arguments line draw store = some result ∧
        Counted result) ∧
      ∀ context after raised, callBuiltin builtin arguments line context = .fault raised after →
        raised.mismatch? = none
  direct : builtin.ownCheck ≠ .absent → ∀ draw store mismatch,
    FailsWith mismatch (builtin.apply arguments line draw store) ↔
      builtin.arity.accepts arguments.length = false ∧
        mismatch = builtin.tableMismatch arguments line

variable {α β : Type} {line : Nat} {draw : Float} {store : Store} {arguments : List Value}
  {builtin : Builtin}

theorem counted_ok (value : α) : Counted (.ok value) := by
  intro raised h
  cases h

theorem counted_fault {raised : Fault} (h : raised.mismatch? = none) :
    Counted (.error (.fault raised) : Except Halt α) := by
  intro other hother
  cases hother
  exact h

theorem Counted.not_failsWith {result : Except Halt α} (h : Counted result)
    (mismatch : Mismatch) : ¬FailsWith mismatch result := by
  rintro ⟨raised, hresult, hmismatch⟩
  have hnone := h raised hresult
  simp [hmismatch] at hnone

theorem Counted.map {result : Except Halt α} (h : Counted result) (change : α → β) :
    Counted (result.map change) := by
  cases result with
  | ok value => exact counted_ok (change value)
  | error halt =>
      intro raised hraised
      cases hraised
      exact h raised rfl

theorem FailsWith.unique {result : Except Halt α} {mismatch other : Mismatch}
    (h : FailsWith mismatch result) (hother : FailsWith other result) : mismatch = other := by
  obtain ⟨raised, rfl, hmismatch⟩ := h
  obtain ⟨_, hsame, hother⟩ := hother
  cases hsame
  rw [hmismatch] at hother
  exact Option.some.inj hother

namespace OwnCheck

/-- A check does what a table with its name and its arity does. -/
theorem run_eq {check : OwnCheck} {function : String} {arity : Arity}
    (h : check.entry? = some (function, arity)) :
    check.run arguments line =
      if arity.accepts arguments.length then .ok ()
      else .error ⟨function, arity.text, arguments.length, line⟩ := by
  cases check with
  | exactly own count =>
      cases h
      simp [run, Arity.accepts, Arity.text]
  | first own =>
      cases h
      cases arguments with
      | nil => rfl
      | cons value rest => simp [run, Arity.accepts]
  | absent => cases h

end OwnCheck

namespace Builtin

theorem ofName?_name (builtin : Builtin) : ofName? builtin.name = some builtin := by
  cases builtin <;> decide

/-- What a function knows of its own name and number of arguments is what the table has. -/
theorem entry?_ownCheck (h : builtin.ownCheck ≠ .absent) :
    builtin.ownCheck.entry? = some (builtin.name, builtin.arity) := by
  cases builtin with
  | slice | join | random | greatest | least => exact absurd rfl h
  | _ => rfl

theorem run_ownCheck (h : builtin.ownCheck ≠ .absent) :
    builtin.ownCheck.run arguments line =
      if builtin.arity.accepts arguments.length then .ok ()
      else .error (builtin.tableMismatch arguments line) :=
  OwnCheck.run_eq (entry?_ownCheck h)

theorem run_ownCheck_of_accepted (line : Nat)
    (h : builtin.arity.accepts arguments.length = true) :
    builtin.ownCheck.run arguments line = .ok () := by
  by_cases habsent : builtin.ownCheck = .absent
  · rw [habsent]
    rfl
  · rw [run_ownCheck habsent, if_pos h]

/-- A function whose own check is satisfied finds all that it reads. -/
theorem behindCheck_of_run (h : builtin.ownCheck.run arguments line = .ok ()) :
    builtin.behindCheck arguments line draw store =
      some (builtin.apply arguments line draw store) := by
  have hlength {function : String} {count : Nat}
      (hcheck : builtin.ownCheck = .exactly function count) : arguments.length = count := by
    by_contra hcount
    simp [hcheck, OwnCheck.run, hcount] at h
  cases builtin with
  | slice | join | random | greatest | least => rfl
  | append =>
      cases arguments with
      | nil => cases h
      | cons target items => cases target <;> rfl
  | removeLast =>
      obtain ⟨target, rfl⟩ := List.length_eq_one_iff.mp (hlength rfl)
      cases target <;> rfl
  | find | readAt | power =>
      obtain ⟨first, second, rfl⟩ := List.length_eq_two.mp (hlength rfl)
      rfl
  | writeAt =>
      obtain ⟨target, index, value, rfl⟩ := List.length_eq_three.mp (hlength rfl)
      rfl
  | read =>
      obtain rfl := List.length_eq_zero_iff.mp (hlength rfl)
      rfl
  | _ =>
      obtain ⟨value, rfl⟩ := List.length_eq_one_iff.mp (hlength rfl)
      rfl

/-- A function that checks for itself refuses what the table refuses. -/
theorem apply_of_refused (hcheck : builtin.ownCheck ≠ .absent)
    (h : builtin.arity.accepts arguments.length = false) :
    builtin.apply arguments line draw store =
      .error (.fault (builtin.miscount arguments line)) := by
  cases builtin with
  | slice | join | random | greatest | least => exact absurd rfl hcheck
  | append =>
      cases arguments with
      | nil => rfl
      | cons target items => simp [arity, Arity.accepts] at h
  | find | readAt | power =>
      rcases arguments with _ | ⟨first, _ | ⟨second, _ | ⟨third, rest⟩⟩⟩
      · rfl
      · rfl
      · cases h
      · rfl
  | writeAt =>
      rcases arguments with _ | ⟨target, _ | ⟨index, _ | ⟨value, _ | ⟨other, rest⟩⟩⟩⟩
      · rfl
      · rfl
      · rfl
      · cases h
      · rfl
  | read =>
      cases arguments with
      | nil => cases h
      | cons value rest => rfl
  | _ =>
      rcases arguments with _ | ⟨value, _ | ⟨other, rest⟩⟩
      · rfl
      · cases h
      · rfl

end Builtin

/-- A result of reading that reports no wrong number of arguments. -/
def CountedRead (result : Except Fault α) : Prop :=
  ∀ raised, result = .error raised → raised.mismatch? = none

theorem countedRead_ok (value : α) : CountedRead (.ok value) := by
  intro raised h
  cases h

theorem countedRead_ofType (misfit : TypeFault) :
    CountedRead (.error (.ofType misfit line) : Except Fault α) := by
  intro raised h
  cases h
  rfl

theorem CountedRead.map {result : Except Fault α} (h : CountedRead result) (change : α → β) :
    CountedRead (result.map change) := by
  cases result with
  | ok value => exact countedRead_ok (change value)
  | error raised =>
      intro other hother
      cases hother
      exact h raised rfl

theorem CountedRead.bind {result : Except Fault α} {next : α → Except Fault β}
    (h : CountedRead result) (hnext : ∀ value, CountedRead (next value)) :
    CountedRead (result >>= next) := by
  cases result with
  | ok value => exact hnext value
  | error raised =>
      intro other hother
      cases hother
      exact h raised rfl

namespace Value

theorem countedRead_asNumber (value : Value) : CountedRead (value.asNumber line) := by
  cases value with
  | number value => exact countedRead_ok value
  | _ => exact countedRead_ofType _

theorem countedRead_readIndex (store : Store) (target index : Value) :
    CountedRead (target.readIndex store index line) := by
  cases target with
  | list address | record address | text value => exact countedRead_ok _
  | _ => exact countedRead_ofType _

theorem counted_writeIndex (store : Store) (target index value : Value) :
    Counted (target.writeIndex store index value line) := by
  cases target with
  | list address =>
      simp only [writeIndex]
      split
      · split
        · exact counted_ok _
        · exact counted_fault rfl
      · exact counted_fault rfl
  | record address =>
      simp only [writeIndex]
      split
      · intro raised h
        cases h
      · exact counted_ok _
  | _ => exact counted_fault rfl

end Value

namespace Builtin

theorem counted_reads {result : Except Fault Value} (h : CountedRead result) :
    Counted (reads result) := by
  cases result with
  | ok value => exact counted_ok _
  | error raised => exact counted_fault (h raised rfl)

theorem counted_onNumber (value : Value) (function : Float → Float) :
    Counted (onNumber value line function) :=
  counted_reads (value.countedRead_asNumber.map _)

theorem counted_onList (target : Value) (function : String) (change : Address → Value × Effect) :
    Counted (onList target function line change) := by
  cases target with
  | list address => exact counted_ok _
  | _ => exact counted_fault rfl

theorem countedRead_powerOf (base exponent : Value) :
    CountedRead (powerOf base exponent line) := by
  refine base.countedRead_asNumber.bind fun number => ?_
  exact exponent.countedRead_asNumber.bind fun power => countedRead_ok _

theorem countedRead_randomOf (arguments : List Value) (draw : Float) :
    CountedRead (randomOf arguments line draw) := by
  unfold randomOf
  split
  · split
    · exact (Value.countedRead_asNumber _).map _
    · exact countedRead_ok _
  · exact countedRead_ok _

theorem countedRead_bestOf (replaces : Float → Float → Bool) (worst : Float)
    (arguments : List Value) : CountedRead (bestOf replaces worst arguments line) := by
  unfold bestOf
  induction arguments generalizing worst with
  | nil => exact countedRead_ok worst
  | cons value rest ih =>
      rw [List.foldlM_cons]
      refine CountedRead.bind ?_ ih
      exact value.countedRead_asNumber.bind fun next => countedRead_ok _

/-- Behind its check no function reports a wrong number of arguments. -/
theorem counted_behindCheck {result : Except Halt (Value × Effect)}
    (h : builtin.behindCheck arguments line draw store = some result) : Counted result := by
  cases builtin with
  | toNumber | toText | truth | kind | length | upper | lower =>
      obtain ⟨value, -, rfl⟩ := Option.map_eq_some_iff.mp h
      exact counted_ok _
  | round | ceil | floor | absolute | squareRoot =>
      obtain ⟨value, -, rfl⟩ := Option.map_eq_some_iff.mp h
      exact counted_onNumber value _
  | append | removeLast =>
      obtain ⟨target, -, rfl⟩ := Option.map_eq_some_iff.mp h
      exact counted_onList target _ _
  | find =>
      obtain ⟨text, -, h⟩ := Option.bind_eq_some_iff.mp h
      obtain ⟨needle, -, h⟩ := Option.bind_eq_some_iff.mp h
      cases h
      exact counted_ok _
  | readAt =>
      obtain ⟨target, -, h⟩ := Option.bind_eq_some_iff.mp h
      obtain ⟨index, -, h⟩ := Option.bind_eq_some_iff.mp h
      cases h
      exact counted_reads (target.countedRead_readIndex store index)
  | power =>
      obtain ⟨base, -, h⟩ := Option.bind_eq_some_iff.mp h
      obtain ⟨exponent, -, h⟩ := Option.bind_eq_some_iff.mp h
      cases h
      exact counted_reads (countedRead_powerOf base exponent)
  | writeAt =>
      obtain ⟨target, -, h⟩ := Option.bind_eq_some_iff.mp h
      obtain ⟨index, -, h⟩ := Option.bind_eq_some_iff.mp h
      obtain ⟨value, -, h⟩ := Option.bind_eq_some_iff.mp h
      cases h
      exact (target.counted_writeIndex store index value).map _
  | slice | join | read =>
      cases h
      exact counted_ok _
  | random =>
      cases h
      exact counted_reads (countedRead_randomOf arguments draw)
  | greatest | least =>
      cases h
      exact counted_reads ((countedRead_bestOf _ _ arguments).map _)

theorem counted_apply_of_accepted (line : Nat) (draw : Float) (store : Store)
    (h : builtin.arity.accepts arguments.length = true) :
    Counted (builtin.apply arguments line draw store) :=
  counted_behindCheck (behindCheck_of_run (run_ownCheck_of_accepted line h))

theorem failsWith_of_refused (line : Nat) (draw : Float) (store : Store)
    (hcheck : builtin.ownCheck ≠ .absent)
    (h : builtin.arity.accepts arguments.length = false) :
    FailsWith (builtin.tableMismatch arguments line)
      (builtin.apply arguments line draw store) :=
  ⟨builtin.miscount arguments line, apply_of_refused hcheck h, rfl⟩

/-- A function is its own check with what it does behind it. -/
theorem apply_layers (builtin : Builtin) (arguments : List Value) (line : Nat) (draw : Float)
    (store : Store) :
    match builtin.ownCheck.run arguments line with
    | .error mismatch => FailsWith mismatch (builtin.apply arguments line draw store)
    | .ok () => builtin.behindCheck arguments line draw store =
        some (builtin.apply arguments line draw store) := by
  split
  next mismatch hrun =>
    have hcheck : builtin.ownCheck ≠ .absent := by
      intro habsent
      rw [habsent] at hrun
      cases hrun
    cases haccepts : builtin.arity.accepts arguments.length with
    | true =>
        rw [run_ownCheck_of_accepted line haccepts] at hrun
        cases hrun
    | false =>
        rw [run_ownCheck hcheck, haccepts] at hrun
        cases hrun
        exact failsWith_of_refused line draw store hcheck haccepts
  next hrun => exact behindCheck_of_run hrun

theorem evalCall_name {eval : Evaluator} {exec : Executor} {expressions : List Expr}
    {before after : Context} (h : evalAll eval expressions before = .ok arguments after) :
    evalCall eval exec builtin.name expressions line before =
      callBuiltin builtin arguments line after := by
  unfold evalCall
  rw [ofName?_name]
  simp only [Action.bind_apply, h]

theorem mismatch?_of_callBuiltin {context after : Context} {raised : Fault}
    (haccepts : builtin.arity.accepts arguments.length = true)
    (h : callBuiltin builtin arguments line context = .fault raised after) :
    raised.mismatch? = none := by
  rw [callBuiltin_of_accepted haccepts] at h
  split at h
  next => cases h
  next other happly =>
    cases h
    exact counted_apply_of_accepted _ _ _ haccepts raised happly
  next => cases h

theorem failsWith_apply_iff (hcheck : builtin.ownCheck ≠ .absent) (mismatch : Mismatch) :
    FailsWith mismatch (builtin.apply arguments line draw store) ↔
      builtin.arity.accepts arguments.length = false ∧
        mismatch = builtin.tableMismatch arguments line := by
  cases haccepts : builtin.arity.accepts arguments.length with
  | true =>
      have hcounted := counted_apply_of_accepted line draw store haccepts
      simp [hcounted.not_failsWith]
  | false =>
      have hfails := failsWith_of_refused line draw store hcheck haccepts
      refine ⟨fun h => ⟨rfl, h.unique hfails⟩, ?_⟩
      rintro ⟨-, rfl⟩
      exact hfails

/-- **The checks of the table and of the functions agree**, for every built-in function and all
arguments. -/
theorem checks_agree (builtin : Builtin) (arguments : List Value) (line : Nat) :
    builtin.ChecksAgree arguments line where
  layers := builtin.apply_layers arguments line
  called _ _ _ _ _ h := evalCall_name h
  refused h context := ⟨builtin.miscount arguments line, callBuiltin_of_refused h, rfl⟩
  accepted h := by
    have hrun := run_ownCheck_of_accepted line h
    refine ⟨hrun, ?_, fun _ _ _ hfault => mismatch?_of_callBuiltin h hfault⟩
    intro draw store
    exact ⟨_, behindCheck_of_run hrun, counted_apply_of_accepted line draw store h⟩
  direct hcheck _ _ mismatch := failsWith_apply_iff hcheck mismatch

end Builtin

end Bhasha
