import Bhasha.Builtin.Apply

/-!
# The faults of operations

An operation on values fails with a fault on the line that it is told, and the cause of the fault
is never one of those that have to do with the control of a run.
-/

namespace Bhasha

/-- Whether a cause has to do with the control of a run rather than with an operation. -/
def FaultCause.isControl : FaultCause → Bool
  | breakOutsideLoop | continueOutsideLoop | returnOutsideFunction | callDepthExceeded _ => true
  | _ => false

/-- A fault as operations on the line raise it. -/
def Fault.ArisesAt (line : Nat) (raised : Fault) : Prop :=
  raised.line = line ∧ raised.cause.isControl = false

/-- A result fails, if it does, with a fault of an operation on the line. -/
def FaultsAt {α : Type} (line : Nat) (result : Except Fault α) : Prop :=
  ∀ raised, result = .error raised → raised.ArisesAt line

/-- A result that may also end the run fails, if it does, with a fault of an operation on the
line. -/
def HaltsAt {α : Type} (line : Nat) (result : Except Halt α) : Prop :=
  ∀ raised, result = .error (.fault raised) → raised.ArisesAt line

variable {α β : Type} {line : Nat}

theorem faultsAt_ok (value : α) : FaultsAt line (.ok value) := by
  intro raised h
  cases h

theorem faultsAt_error {raised : Fault} (h : raised.ArisesAt line) :
    FaultsAt line (.error raised : Except Fault α) := by
  intro other hother
  cases hother
  exact h

theorem FaultsAt.map {result : Except Fault α} (h : FaultsAt line result) (change : α → β) :
    FaultsAt line (result.map change) := by
  cases result with
  | ok value => exact faultsAt_ok (change value)
  | error raised => exact faultsAt_error (h raised rfl)

theorem FaultsAt.bind
    {result : Except Fault α} {next : α → Except Fault β} (h : FaultsAt line result)
    (hnext : ∀ value, FaultsAt line (next value)) : FaultsAt line (result >>= next) := by
  cases result with
  | ok value => exact hnext value
  | error raised => exact faultsAt_error (h raised rfl)

theorem haltsAt_ok (value : α) : HaltsAt line (.ok value) := by
  intro raised h
  cases h

theorem haltsAt_fault {raised : Fault} (h : raised.ArisesAt line) :
    HaltsAt line (.error (.fault raised) : Except Halt α) := by
  intro other hother
  cases hother
  exact h

theorem haltsAt_fatal : HaltsAt line (.error .fatal : Except Halt α) := by
  intro raised h
  cases h

theorem HaltsAt.map {result : Except Halt α} (h : HaltsAt line result) (change : α → β) :
    HaltsAt line (result.map change) := by
  cases result with
  | ok value => exact haltsAt_ok (change value)
  | error halt =>
      intro raised hraised
      cases hraised
      exact h raised rfl

theorem faultsAt_asNumber (value : Value) : FaultsAt line (value.asNumber line) := by
  cases value with
  | number value => exact faultsAt_ok value
  | _ => exact faultsAt_error ⟨rfl, rfl⟩

namespace UnaryOp

theorem faultsAt_apply (op : UnaryOp) (operand : Value) : FaultsAt line (op.apply operand line) := by
  cases op with
  | negate => exact (faultsAt_asNumber operand).map _
  | not => exact faultsAt_ok _

end UnaryOp

namespace BinaryOp

theorem faultsAt_misfit (op : BinaryOp) (left right : Value) :
    FaultsAt line (.error (op.misfit left right line) : Except Fault α) :=
  faultsAt_error ⟨rfl, rfl⟩

theorem faultsAt_calculate
    {op : BinaryOp} {left right : Float} {result : Except Fault Float}
    (h : op.calculate left right line = some result) : FaultsAt line result := by
  have hzero : ∀ (cause : FaultCause) (value : Float), cause.isControl = false →
      FaultsAt line (if right == 0 then .error ⟨cause, line⟩ else .ok value) := by
    intro cause value hcause
    split
    · exact faultsAt_error ⟨rfl, hcause⟩
    · exact faultsAt_ok value
  cases op with
  | add => cases h; exact faultsAt_ok _
  | subtract => cases h; exact faultsAt_ok _
  | multiply => cases h; exact faultsAt_ok _
  | divide => cases h; exact hzero .divisionByZero _ rfl
  | modulo => cases h; exact hzero .moduloByZero _ rfl
  | _ => cases h

theorem faultsAt_applyArithmetic (store : Store) (op : BinaryOp) (left right : Value) :
    FaultsAt line (op.applyArithmetic store left right line) := by
  unfold applyArithmetic
  split
  · split
    next result hresult => exact (faultsAt_calculate hresult).map _
    next => exact faultsAt_misfit _ _ _
  · split
    · exact faultsAt_ok _
    · exact faultsAt_misfit _ _ _

theorem faultsAt_applyComparison (op : BinaryOp) (left right : Value) :
    FaultsAt line (op.applyComparison left right line) := by
  unfold applyComparison
  split
  · exact faultsAt_ok _
  · exact faultsAt_ok _
  · split
    · exact faultsAt_ok _
    · exact faultsAt_ok _
    · exact faultsAt_error ⟨rfl, rfl⟩

theorem faultsAt_apply (store : Store) (op : BinaryOp) (left right : Value) :
    FaultsAt line (op.apply store left right line) := by
  unfold apply
  split
  · exact faultsAt_applyComparison op left right
  · exact faultsAt_applyArithmetic store op left right

end BinaryOp

namespace Value

theorem faultsAt_readIndex (store : Store) (target index : Value) :
    FaultsAt line (target.readIndex store index line) := by
  cases target with
  | list address => exact faultsAt_ok _
  | record address => exact faultsAt_ok _
  | text value => exact faultsAt_ok _
  | _ => exact faultsAt_error ⟨rfl, rfl⟩

theorem haltsAt_writeIndex (store : Store) (target index value : Value) :
    HaltsAt line (target.writeIndex store index value line) := by
  cases target with
  | list address =>
      simp only [writeIndex]
      split
      · split
        · exact haltsAt_ok _
        · exact haltsAt_fault ⟨rfl, rfl⟩
      · exact haltsAt_fault ⟨rfl, rfl⟩
  | record address =>
      simp only [writeIndex]
      split
      · exact haltsAt_fatal
      · exact haltsAt_ok _
  | _ => exact haltsAt_fault ⟨rfl, rfl⟩

theorem faultsAt_readProperty (store : Store) (target : Value) (name : String) :
    FaultsAt line (target.readProperty store name line) := by
  cases target with
  | record address => exact faultsAt_ok _
  | list address => exact faultsAt_ok _
  | text value => exact faultsAt_ok _
  | _ => exact faultsAt_error ⟨rfl, rfl⟩

theorem haltsAt_writeProperty (target : Value) (name : String) (value : Value) :
    HaltsAt line (target.writeProperty name value line) := by
  cases target with
  | record address => exact haltsAt_ok _
  | _ => exact haltsAt_fault ⟨rfl, rfl⟩

end Value

namespace Builtin

theorem haltsAt_reads {result : Except Fault Value} (h : FaultsAt line result) :
    HaltsAt line (reads result) := by
  cases result with
  | ok value => exact haltsAt_ok _
  | error raised => exact haltsAt_fault (h raised rfl)

theorem haltsAt_onNumber (value : Value) (function : Float → Float) :
    HaltsAt line (onNumber value line function) :=
  haltsAt_reads ((faultsAt_asNumber value).map _)

theorem haltsAt_powerOf (base exponent : Value) :
    HaltsAt line (reads do
      let base ← base.asNumber line
      let exponent ← exponent.asNumber line
      return .number (base.pow exponent)) := by
  refine haltsAt_reads ((faultsAt_asNumber base).bind fun number => ?_)
  exact (faultsAt_asNumber exponent).bind fun power => faultsAt_ok _

theorem faultsAt_randomOf (arguments : List Value) (draw : Float) :
    FaultsAt line (randomOf arguments line draw) := by
  unfold randomOf
  split
  · split
    · exact (faultsAt_asNumber _).map _
    · exact faultsAt_ok _
  · exact faultsAt_ok _

theorem faultsAt_bestOf (replaces : Float → Float → Bool) (worst : Float) (arguments : List Value) :
    FaultsAt line (bestOf replaces worst arguments line) := by
  unfold bestOf
  induction arguments generalizing worst with
  | nil => exact faultsAt_ok worst
  | cons value rest ih =>
      rw [List.foldlM_cons]
      refine FaultsAt.bind ?_ ih
      exact (faultsAt_asNumber value).bind fun next => faultsAt_ok _

theorem arisesAt_miscount (builtin : Builtin) (arguments : List Value) :
    (builtin.miscount arguments line).ArisesAt line :=
  ⟨rfl, rfl⟩

theorem haltsAt_apply
    (builtin : Builtin) (arguments : List Value) (draw : Float) (store : Store) :
    HaltsAt line (builtin.apply arguments line draw store) := by
  unfold apply
  split
  all_goals first
    | exact haltsAt_ok _
    | exact haltsAt_fault (arisesAt_miscount _ _)
    | exact haltsAt_onNumber _ _
    | exact haltsAt_powerOf _ _
    | exact haltsAt_reads (Value.faultsAt_readIndex store _ _)
    | exact (Value.haltsAt_writeIndex store _ _ _).map _
    | exact haltsAt_reads (faultsAt_randomOf _ draw)
    | exact haltsAt_reads ((faultsAt_bestOf _ _ _).map _)
    | (split <;> first | exact haltsAt_ok _ | exact haltsAt_fault ⟨rfl, rfl⟩)

end Builtin

end Bhasha
