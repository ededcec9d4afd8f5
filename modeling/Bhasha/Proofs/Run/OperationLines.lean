import Bhasha.Builtin.Apply

/-!
# Operations and lines

An operation on values is told its line for one purpose only, which is to say where a fault
arose.  Told another line it gives the same result, or the same fault on the other line.
-/

namespace Bhasha

/-- The fault with its line exchanged for its image. -/
def Fault.relabel (label : Nat → Nat) (raised : Fault) : Fault where
  cause := raised.cause
  line := label raised.line

theorem Fault.message_relabel (label : Nat → Nat) (raised : Fault) :
    (raised.relabel label).message = raised.message :=
  rfl

def Halt.relabel (label : Nat → Nat) : Halt → Halt
  | fault raised => fault (raised.relabel label)
  | fatal => fatal

variable {α β : Type} {label : Nat → Nat} {line : Nat}

/-- The second result is the first one, with the line of a fault exchanged for its image. -/
def Relabels (label : Nat → Nat) (first second : Except Fault α) : Prop :=
  second = first.mapError (·.relabel label)

/-- The second result is the first one, with the line of a fault exchanged for its image. -/
def HaltRelabels (label : Nat → Nat) (first second : Except Halt α) : Prop :=
  second = first.mapError (·.relabel label)

theorem Relabels.map {first second : Except Fault α} (h : Relabels label first second)
    (change : α → β) : Relabels label (first.map change) (second.map change) := by
  cases h
  cases first <;> rfl

theorem Relabels.bind {first second : Except Fault α} {next next' : α → Except Fault β}
    (h : Relabels label first second)
    (hnext : ∀ value, Relabels label (next value) (next' value)) :
    Relabels label (first >>= next) (second >>= next') := by
  cases h
  cases first with
  | ok value => exact hnext value
  | error raised => rfl

theorem HaltRelabels.map {first second : Except Halt α} (h : HaltRelabels label first second)
    (change : α → β) : HaltRelabels label (first.map change) (second.map change) := by
  cases h
  cases first <;> rfl

theorem relabels_asNumber (value : Value) :
    Relabels label (value.asNumber line) (value.asNumber (label line)) := by
  cases value <;> rfl

theorem UnaryOp.relabels_apply (op : UnaryOp) (operand : Value) :
    Relabels label (op.apply operand line) (op.apply operand (label line)) := by
  cases op with
  | negate => exact (relabels_asNumber operand).map _
  | not => rfl

namespace BinaryOp

theorem relabels_calculate {op : BinaryOp} {left right : Float} {result : Except Fault Float}
    (h : op.calculate left right line = some result) :
    ∃ result', op.calculate left right (label line) = some result' ∧
      Relabels label result result' := by
  have hzero : ∀ (cause : FaultCause) (value : Float),
      Relabels label (if right == 0 then .error ⟨cause, line⟩ else .ok value)
        (if right == 0 then .error ⟨cause, label line⟩ else .ok value) := by
    intro cause value
    split <;> rfl
  cases op with
  | add => cases h; exact ⟨_, rfl, rfl⟩
  | subtract => cases h; exact ⟨_, rfl, rfl⟩
  | multiply => cases h; exact ⟨_, rfl, rfl⟩
  | divide => cases h; exact ⟨_, rfl, hzero _ _⟩
  | modulo => cases h; exact ⟨_, rfl, hzero _ _⟩
  | _ => cases h

theorem calculate_eq_none {op : BinaryOp} {left right : Float}
    (h : op.calculate left right line = none) (other : Nat) :
    op.calculate left right other = none := by
  cases op <;> first | rfl | cases h

theorem relabels_applyArithmetic (store : Store) (op : BinaryOp) (left right : Value) :
    Relabels label (op.applyArithmetic store left right line)
      (op.applyArithmetic store left right (label line)) := by
  unfold applyArithmetic
  split
  · split
    next result hresult =>
      obtain ⟨result', hresult', hrelabels⟩ :
          ∃ result', op.calculate _ _ (label line) = some result' ∧ Relabels label result result' :=
        relabels_calculate hresult
      simp only [hresult']
      exact hrelabels.map _
    next hnone =>
      simp only [calculate_eq_none hnone (label line)]
      rfl
  · split <;> rfl

theorem relabels_applyComparison (op : BinaryOp) (left right : Value) :
    Relabels label (op.applyComparison left right line)
      (op.applyComparison left right (label line)) := by
  unfold applyComparison
  split
  · rfl
  · rfl
  · split <;> rfl

theorem relabels_apply (store : Store) (op : BinaryOp) (left right : Value) :
    Relabels label (op.apply store left right line) (op.apply store left right (label line)) := by
  unfold apply
  split
  · exact relabels_applyComparison op left right
  · exact relabels_applyArithmetic store op left right

end BinaryOp

namespace Value

theorem relabels_readIndex (store : Store) (target index : Value) :
    Relabels label (target.readIndex store index line)
      (target.readIndex store index (label line)) := by
  cases target <;> rfl

theorem haltRelabels_writeIndex (store : Store) (target index value : Value) :
    HaltRelabels label (target.writeIndex store index value line)
      (target.writeIndex store index value (label line)) := by
  cases target with
  | list address =>
      simp only [writeIndex]
      split
      · split <;> rfl
      · rfl
  | record address =>
      simp only [writeIndex]
      split <;> rfl
  | _ => rfl

theorem relabels_readProperty (store : Store) (target : Value) (name : String) :
    Relabels label (target.readProperty store name line)
      (target.readProperty store name (label line)) := by
  cases target <;> rfl

theorem haltRelabels_writeProperty (target : Value) (name : String) (value : Value) :
    HaltRelabels label (target.writeProperty name value line)
      (target.writeProperty name value (label line)) := by
  cases target <;> rfl

end Value

namespace Builtin

theorem haltRelabels_reads {first second : Except Fault Value} (h : Relabels label first second) :
    HaltRelabels label (reads first) (reads second) := by
  cases h
  cases first <;> rfl

theorem haltRelabels_onNumber (value : Value) (function : Float → Float) :
    HaltRelabels label (onNumber value line function) (onNumber value (label line) function) :=
  haltRelabels_reads ((relabels_asNumber value).map _)

theorem haltRelabels_powerOf (base exponent : Value) :
    HaltRelabels label
      (reads do
        let base ← base.asNumber line
        let exponent ← exponent.asNumber line
        return .number (base.pow exponent))
      (reads do
        let base ← base.asNumber (label line)
        let exponent ← exponent.asNumber (label line)
        return .number (base.pow exponent)) := by
  refine haltRelabels_reads ((relabels_asNumber base).bind fun number => ?_)
  exact (relabels_asNumber exponent).bind fun power => rfl

theorem relabels_randomOf (arguments : List Value) (draw : Float) :
    Relabels label (randomOf arguments line draw) (randomOf arguments (label line) draw) := by
  unfold randomOf
  split
  · split
    · exact (relabels_asNumber _).map _
    · rfl
  · rfl

theorem relabels_bestOf (replaces : Float → Float → Bool) (worst : Float)
    (arguments : List Value) :
    Relabels label (bestOf replaces worst arguments line)
      (bestOf replaces worst arguments (label line)) := by
  unfold bestOf
  induction arguments generalizing worst with
  | nil => rfl
  | cons value rest ih =>
      rw [List.foldlM_cons, List.foldlM_cons]
      refine Relabels.bind ?_ ih
      exact (relabels_asNumber value).bind fun next => rfl

theorem haltRelabels_apply (builtin : Builtin) (arguments : List Value) (draw : Float)
    (store : Store) :
    HaltRelabels label (builtin.apply arguments line draw store)
      (builtin.apply arguments (label line) draw store) := by
  unfold apply
  split
  all_goals first
    | rfl
    | exact haltRelabels_onNumber _ _
    | exact haltRelabels_powerOf _ _
    | exact haltRelabels_reads (Value.relabels_readIndex store _ _)
    | exact (Value.haltRelabels_writeIndex store _ _ _).map _
    | exact haltRelabels_reads (relabels_randomOf _ draw)
    | exact haltRelabels_reads ((relabels_bestOf _ _ _).map _)
    | (split <;> rfl)

end Builtin

end Bhasha
