import Bhasha.Builtin.Apply
import Bhasha.Proofs.Store.Renaming

/-!
# Operations on stores with other addresses

The operators, the ways to read and write a part of a value, and the built-in functions use what
they see of addresses only to find containers and to tell them apart.  Given the images of their
operands in a store with other addresses, they fail alike, or give the image of the result and of
the effect.
-/

namespace Bhasha

variable {image : Address → Address} {left right : Store}

@[simp] theorem Value.asNumber_rename (image : Address → Address) (value : Value) (line : Nat) :
    (value.rename image).asNumber line = value.asNumber line := by
  cases value <;> rfl

theorem UnaryOp.apply_rename (image : Address → Address) (op : UnaryOp) (operand : Value)
    (line : Nat) :
    op.apply (operand.rename image) line = (op.apply operand line).map (·.rename image) := by
  cases op with
  | negate =>
      simp only [apply, Value.asNumber_rename]
      cases operand.asNumber line <;> rfl
  | not => simp [apply, Except.map]

namespace BinaryOp

variable (h : left.RenamedTo image right)

include h

theorem applyComparison_rename (op : BinaryOp) (first second : Value) (line : Nat) :
    op.applyComparison (first.rename image) (second.rename image) line =
      (op.applyComparison first second line).map (·.rename image) := by
  have hequal := Value.looselyEquals_rename h.injective first second
  unfold applyComparison
  split
  · rw [hequal]
    rfl
  · rw [hequal]
    rfl
  · cases first <;> cases second <;> rfl

theorem applyArithmetic_rename (op : BinaryOp) {first second : Value} (line : Nat)
    (hfirst : first.Within (· < left.size)) (hsecond : second.Within (· < left.size)) :
    op.applyArithmetic right (first.rename image) (second.rename image) line =
      (op.applyArithmetic left first second line).map (·.rename image) := by
  have hmisfit : op.misfit (first.rename image) (second.rename image) line =
      op.misfit first second line := by
    simp only [misfit, Value.type_rename]
  have hjoined : (first.rename image).display right ++ (second.rename image).display right =
      first.display left ++ second.display left := by
    rw [Value.display_rename h hfirst, Value.display_rename h hsecond]
  have htexts : (if op = add ∧ ((first.rename image).type = ValueType.text ∨
          (second.rename image).type = ValueType.text) then
        Except.ok (Value.text
          ((first.rename image).display right ++ (second.rename image).display right))
      else Except.error (op.misfit (first.rename image) (second.rename image) line)) =
      (if op = add ∧ (first.type = ValueType.text ∨ second.type = ValueType.text) then
        Except.ok (Value.text (first.display left ++ second.display left))
      else Except.error (op.misfit first second line)).map (·.rename image) := by
    simp only [Value.type_rename, hmisfit, hjoined]
    split <;> rfl
  unfold applyArithmetic
  cases first with
  | number value =>
      cases second with
      | number other =>
          simp only [Value.rename_number] at hmisfit ⊢
          cases op.calculate value other line with
          | none => rfl
          | some result => cases result <;> rfl
      | _ => exact htexts
  | _ => exact htexts

theorem apply_rename (op : BinaryOp) {first second : Value} (line : Nat)
    (hfirst : first.Within (· < left.size)) (hsecond : second.Within (· < left.size)) :
    op.apply right (first.rename image) (second.rename image) line =
      (op.apply left first second line).map (·.rename image) := by
  unfold apply
  split
  · exact applyComparison_rename h op first second line
  · exact applyArithmetic_rename h op line hfirst hsecond

end BinaryOp

namespace Value

variable (h : left.RenamedTo image right)

include h

theorem readIndex_rename (target : Value) {index : Value} (line : Nat)
    (hindex : index.Within (· < left.size)) :
    (target.rename image).readIndex right (index.rename image) line =
      (target.readIndex left index line).map (·.rename image) := by
  cases target with
  | list address =>
      simp only [rename_list, readIndex, position?_rename, h.items, Except.map]
      cases index.position? with
      | none => rfl
      | some position => cases hitem : (left.items address)[position]? <;> simp [hitem]
  | record address =>
      simp only [rename_record, readIndex, display_rename h hindex, h.fields, Table.get?_map,
        Except.map]
      cases (left.fields address).get? (index.display left) <;> rfl
  | text value =>
      simp only [rename_text, readIndex, position?_rename, Except.map]
      cases index.position?.bind fun position => value.toList[position]? <;> rfl
  | _ => rfl

theorem readProperty_rename (target : Value) (name : String) (line : Nat) :
    (target.rename image).readProperty right name line =
      (target.readProperty left name line).map (·.rename image) := by
  cases target with
  | record address =>
      simp only [rename_record, readProperty, h.fields, Table.get?_map, Except.map]
      cases (left.fields address).get? name <;> rfl
  | list address =>
      simp only [rename_list, readProperty, h.items, Array.size_map, Except.map]
      split <;> rfl
  | text value =>
      simp only [rename_text, readProperty, Except.map]
      split <;> rfl
  | _ => rfl

theorem writeIndex_rename (target written : Value) {index : Value} (line : Nat)
    (hindex : index.Within (· < left.size)) :
    (target.rename image).writeIndex right (index.rename image) (written.rename image) line =
      (target.writeIndex left index written line).map (·.rename image) := by
  cases target with
  | list address =>
      simp only [rename_list, writeIndex, position?_rename, display_rename h hindex]
      cases index.position? with
      | none => rfl
      | some position =>
          simp only
          split <;> rfl
  | record address =>
      simp only [rename_record, writeIndex, display_rename h hindex, displayReads_rename h]
      split <;> rfl
  | _ => rfl

omit h in
theorem writeProperty_rename (target : Value) (name : String) (written : Value) (line : Nat) :
    (target.rename image).writeProperty name (written.rename image) line =
      (target.writeProperty name written line).map (·.rename image) := by
  cases target <;> rfl

end Value

/-- A result and what is written, with the images of all addresses. -/
def renameWritten {α : Type} (image : Address → Address) (change : α → α) (written : α × Effect) :
    α × Effect :=
  (change written.1, written.2.rename image)

namespace Builtin

theorem reads_rename (result : Except Fault Value) :
    reads (result.map (·.rename image)) =
      (reads result).map (renameWritten image (·.rename image)) := by
  cases result <;> rfl

/-- A number stays as it is. -/
theorem reads_number {α : Type} (result : Except Fault α) (number : α → Float) :
    reads (result.map fun value => .number (number value)) =
      (reads (result.map fun value => .number (number value))).map
        (renameWritten image (·.rename image)) := by
  cases result <;> rfl

theorem bestOf_rename (replaces : Float → Float → Bool) (worst : Float) (arguments : List Value)
    (line : Nat) :
    bestOf replaces worst (arguments.map (·.rename image)) line =
      bestOf replaces worst arguments line := by
  unfold bestOf
  simp [List.foldlM_map]

theorem randomOf_rename (arguments : List Value) (line : Nat) (draw : Float) :
    randomOf (arguments.map (·.rename image)) line draw =
      (randomOf arguments line draw).map (·.rename image) := by
  unfold randomOf
  rw [List.getElem?_map]
  cases arguments[0]? with
  | none => rfl
  | some value =>
      simp only [Option.map_some, Value.truthy_rename, Value.asNumber_rename]
      split
      · cases value.asNumber line <;> rfl
      · rfl

variable (h : left.RenamedTo image right)

include h

theorem lengthOf_rename {value : Value} (hvalue : value.Within (· < left.size)) :
    lengthOf right (value.rename image) = lengthOf left value := by
  have hlength := congrArg String.length (Value.display_rename h hvalue)
  cases value with
  | list address => simp [lengthOf, h.items]
  | _ => exact hlength

variable {arguments : List Value}
  (harguments : ∀ argument ∈ arguments, argument.Within (· < left.size))

include harguments

theorem joinTexts_rename :
    joinTexts right (arguments.map (·.rename image)) = joinTexts left arguments := by
  have hfilter : (arguments.map (·.rename image)).filter (· ≠ .null) =
      (arguments.filter (· ≠ .null)).map (·.rename image) := by
    rw [List.filter_map]
    simp only [Function.comp_def, ne_eq, Value.rename_eq_null_iff]
  unfold joinTexts
  rw [hfilter, List.map_map]
  congr 1
  apply List.map_congr_left
  intro argument hargument
  exact Value.display_rename h (harguments argument (List.mem_of_mem_filter hargument))

theorem sliceOf_rename :
    sliceOf right (arguments.map (·.rename image)) = sliceOf left arguments := by
  have hargument {γ : Type} (place : Nat) (otherwise : γ) {read read' : Value → γ}
      (hread : ∀ argument, argument.Within (· < left.size) →
        read' (argument.rename image) = read argument) :
      (arguments.map (·.rename image))[place]?.elim otherwise read' =
        arguments[place]?.elim otherwise read := by
    rw [List.getElem?_map]
    cases hplace : arguments[place]? with
    | none => rfl
    | some argument => exact hread argument (harguments argument (List.mem_of_getElem? hplace))
  have htext := hargument 0 "" fun argument hwithin => Value.display_rename h hwithin
  have hbound (length place otherwise : Nat) :
      (arguments.map (·.rename image))[place]?.elim otherwise (boundOf right length) =
        arguments[place]?.elim otherwise (boundOf left length) := by
    apply hargument
    intro argument hwithin
    rw [boundOf, boundOf, Value.toNumber_rename h hwithin]
  unfold sliceOf
  simp only [htext, hbound]

/-- A built-in function is applied alike on both sides. -/
theorem apply_rename (builtin : Builtin) (line : Nat) (draw : Float) :
    builtin.apply (arguments.map (·.rename image)) line draw right =
      (builtin.apply arguments line draw left).map (renameWritten image (·.rename image)) := by
  cases builtin with
  | toNumber | toText | truth | kind | length | upper | lower =>
      rcases arguments with _ | ⟨value, _ | ⟨other, rest⟩⟩
      · rfl
      · have hvalue := harguments value List.mem_cons_self
        simp [apply, only, renameWritten, Effect.rename, Except.map,
          Value.toNumber_rename h hvalue, Value.display_rename h hvalue, lengthOf_rename h hvalue]
      · simp [apply, miscount, Except.map]
  | round | ceil | floor | absolute | squareRoot =>
      rcases arguments with _ | ⟨value, _ | ⟨other, rest⟩⟩
      · rfl
      · simp only [List.map_cons, List.map_nil, apply, onNumber, Value.asNumber_rename]
        exact reads_number _ _
      · simp [apply, miscount, Except.map]
  | find =>
      rcases arguments with _ | ⟨text, _ | ⟨needle, _ | ⟨other, rest⟩⟩⟩
      · rfl
      · rfl
      · have htext := Value.display_rename h (harguments text (by simp))
        have hneedle := Value.display_rename h (harguments needle (by simp))
        simp only [List.map_cons, List.map_nil, apply, htext, hneedle]
        rfl
      · simp [apply, miscount, Except.map]
  | power =>
      rcases arguments with _ | ⟨base, _ | ⟨exponent, _ | ⟨other, rest⟩⟩⟩
      · rfl
      · rfl
      · simp only [List.map_cons, List.map_nil, apply, Value.asNumber_rename]
        cases base.asNumber line with
        | error raised => rfl
        | ok value => cases exponent.asNumber line <;> rfl
      · simp [apply, miscount, Except.map]
  | readAt =>
      rcases arguments with _ | ⟨target, _ | ⟨index, _ | ⟨other, rest⟩⟩⟩
      · rfl
      · rfl
      · have hindex := harguments index (by simp)
        simp only [List.map_cons, List.map_nil, apply, Value.readIndex_rename h target line hindex]
        exact reads_rename _
      · simp [apply, miscount, Except.map]
  | writeAt =>
      rcases arguments with _ | ⟨target, _ | ⟨index, _ | ⟨written, _ | ⟨other, rest⟩⟩⟩⟩
      · rfl
      · rfl
      · rfl
      · have hindex := harguments index (by simp)
        simp only [List.map_cons, List.map_nil, apply,
          Value.writeIndex_rename h target written line hindex]
        cases target.writeIndex left index written line <;> rfl
      · simp [apply, miscount, Except.map]
  | append =>
      rcases arguments with _ | ⟨target, items⟩
      · rfl
      · cases target <;> rfl
  | removeLast =>
      rcases arguments with _ | ⟨target, _ | ⟨other, rest⟩⟩
      · rfl
      · cases target with
        | list address =>
            simp only [List.map_cons, List.map_nil, Value.rename_list, apply, h.items]
            cases hlast : (left.items address).back? <;>
              simp [hlast, renameWritten, Effect.rename, Except.map]
        | _ => rfl
      · simp [apply, miscount, Except.map]
  | read =>
      cases arguments with
      | nil => rfl
      | cons other rest => simp [apply, miscount, Except.map]
  | slice => simp only [apply, sliceOf_rename h harguments]; rfl
  | join => simp only [apply, joinTexts_rename h harguments]; rfl
  | random => simp only [apply, randomOf_rename, reads_rename]
  | greatest =>
      simp only [apply, greatestOf, bestOf_rename]
      exact reads_number _ _
  | least =>
      simp only [apply, leastOf, bestOf_rename]
      exact reads_number _ _

end Builtin

end Bhasha
