import Bhasha.Scopes

/-!
# Scopes as a list of frames

The global scope is kept apart from the others so that it cannot be left.  Nothing else depends
on this: to leave a scope, to declare a name and to rebind a name are operations on the list of
all frames.
-/

namespace Bhasha

namespace Scopes

variable {scopes : Scopes} {frame : Frame} {rest : List Frame}

theorem frames_ne_nil (scopes : Scopes) : scopes.frames ≠ [] := by
  simp [frames]

theorem frames_pop (h : scopes.frames = frame :: rest) (hrest : rest ≠ []) :
    scopes.pop.frames = rest := by
  obtain ⟨inner, outermost⟩ := scopes
  cases inner with
  | nil =>
      cases h
      exact absurd rfl hrest
  | cons innermost others =>
      cases h
      rfl

theorem frames_define (h : scopes.frames = frame :: rest) (name : String) (value : Value) :
    (scopes.define name value).frames = frame.insert name value :: rest := by
  obtain ⟨inner, outermost⟩ := scopes
  cases inner with
  | nil =>
      cases h
      rfl
  | cons innermost others =>
      cases h
      rfl

theorem assignIn_append (name : String) (value : Value) (inner : List Frame) (last : Frame) :
    assignIn name value (inner ++ [last]) =
      match assignIn name value inner with
      | some written => some (written ++ [last])
      | none => if last.contains name then some (inner ++ [last.insert name value]) else none := by
  induction inner with
  | nil =>
      by_cases hcontains : last.contains name = true <;> simp [assignIn, hcontains]
  | cons frame rest ih =>
      by_cases hcontains : frame.contains name = true
      · simp [assignIn, hcontains]
      · rw [List.cons_append, assignIn, if_neg hcontains, ih, assignIn, if_neg hcontains]
        cases assignIn name value rest with
        | some written => rfl
        | none => by_cases hlast : last.contains name = true <;> simp [hlast]

theorem map_frames_assign? (scopes : Scopes) (name : String) (value : Value) :
    (scopes.assign? name value).map frames = assignIn name value scopes.frames := by
  unfold assign? frames
  rw [assignIn_append]
  cases assignIn name value scopes.inner with
  | some written => rfl
  | none => by_cases hcontains : scopes.outermost.contains name = true <;> simp [hcontains]

theorem exists_frame_of_getIn {name : String} {value : Value} {frames : List Frame}
    (h : getIn name frames = some value) : ∃ frame ∈ frames, frame.get? name = some value := by
  induction frames with
  | nil => cases h
  | cons frame rest ih =>
      unfold getIn at h
      cases hfound : frame.get? name with
      | some found =>
          rw [hfound] at h
          exact ⟨frame, List.mem_cons_self, hfound.trans h⟩
      | none =>
          rw [hfound] at h
          obtain ⟨other, hother, hvalue⟩ := ih h
          exact ⟨other, List.mem_cons_of_mem frame hother, hvalue⟩

section

variable {good : Frame → Prop} {name : String} {value : Value}

theorem forall_frames_push (h : ∀ frame ∈ scopes.frames, good frame) (hempty : good .empty) :
    ∀ frame ∈ scopes.push.frames, good frame :=
  List.forall_mem_cons.mpr ⟨hempty, h⟩

theorem forall_frames_pop (h : ∀ frame ∈ scopes.frames, good frame) :
    ∀ frame ∈ scopes.pop.frames, good frame := by
  intro frame hframe
  apply h frame
  rcases List.mem_append.mp hframe with hinner | houtermost
  · exact List.mem_append_left _ (List.mem_of_mem_tail hinner)
  · exact List.mem_append_right _ houtermost

variable (hinsert : ∀ frame : Frame, good frame → good (frame.insert name value))

include hinsert

theorem forall_frames_define (h : ∀ frame ∈ scopes.frames, good frame) :
    ∀ frame ∈ (scopes.define name value).frames, good frame := by
  obtain ⟨innermost, rest, hframes⟩ := List.exists_cons_of_ne_nil scopes.frames_ne_nil
  rw [hframes, List.forall_mem_cons] at h
  rw [frames_define hframes, List.forall_mem_cons]
  exact ⟨hinsert innermost h.1, h.2⟩

theorem forall_mem_assignIn {frames written : List Frame} (h : ∀ frame ∈ frames, good frame)
    (hassign : assignIn name value frames = some written) : ∀ frame ∈ written, good frame := by
  induction frames generalizing written with
  | nil => cases hassign
  | cons first rest ih =>
      rw [List.forall_mem_cons] at h
      unfold assignIn at hassign
      by_cases hcontains : first.contains name = true
      · rw [if_pos hcontains] at hassign
        cases hassign
        exact List.forall_mem_cons.mpr ⟨hinsert first h.1, h.2⟩
      · rw [if_neg hcontains] at hassign
        obtain ⟨others, hothers, rfl⟩ := Option.map_eq_some_iff.mp hassign
        exact List.forall_mem_cons.mpr ⟨h.1, ih h.2 hothers⟩

theorem forall_frames_assign? {written : Scopes} (h : ∀ frame ∈ scopes.frames, good frame)
    (hassign : scopes.assign? name value = some written) :
    ∀ frame ∈ written.frames, good frame := by
  have hframes : assignIn name value scopes.frames = some written.frames := by
    rw [← map_frames_assign?, hassign]
    rfl
  exact forall_mem_assignIn hinsert h hframes

end

end Scopes

end Bhasha
