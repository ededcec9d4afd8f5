import Bhasha.Proofs.Run.Frames
import Bhasha.Proofs.Run.Guarded
import Bhasha.Proofs.Run.Incremental

/-!
# References stay valid

A list or a record is known by the address that a value holds.  In the state in which a run begins
no value holds one, and an address is only made together with its container.  Nothing takes a
container away or changes its kind.  So all that a state of a run holds, and every value that is on
its way in it, stands for a container of its own kind.
-/

namespace Bhasha

/-- All that the state binds, stores and has still to hand over stands for a container of its own
kind, if it stands for one. -/
structure Context.Fits (context : Context) : Prop where
  store : context.store.Fits
  scopes : ∀ frame ∈ context.scopes.frames, ∀ entry ∈ frame.entries, entry.2.FitsIn context.store
  output : ∀ value ∈ context.output, value.FitsIn context.store

variable {before after : Store} {value : Value}

theorem Value.fitsIn_of_plain {store : Store} (h : value.address? = none) : value.FitsIn store := by
  cases value with
  | list address => cases h
  | record address => cases h
  | _ => trivial

theorem Store.Fits.passesOn (h : before.Fits) : before.PassesOn (Value.FitsIn before) where
  plain := Value.fitsIn_of_plain
  item _ _ hitem := h _ _ hitem

theorem Value.FitsIn.apply (h : value.FitsIn before) (effect : Effect) :
    value.FitsIn (effect.apply before) :=
  h.mono (Store.kindsStay_apply effect before)

theorem Value.FitsIn.add (h : value.FitsIn before) (container : Container) :
    value.FitsIn (before.add container) :=
  h.mono (Store.kindsStay_add before container)

theorem Store.Fits.apply (h : before.Fits) {effect : Effect}
    (hwritten : ∀ item ∈ effect.written, item.FitsIn before) : (effect.apply before).Fits := by
  intro address item hitem
  rcases Effect.mem_contents_apply hitem with hold | hplain | hnew
  · exact (h address item hold).apply effect
  · exact Value.fitsIn_of_plain hplain
  · exact (hwritten item hnew).apply effect

theorem Store.Fits.add (h : before.Fits) {container : Container}
    (hcontents : ∀ item ∈ container.contents, item.FitsIn before) :
    (before.add container).Fits := by
  intro address item hitem
  rcases Store.mem_contents_add hitem with hold | hnew
  · exact (h address item hold).add container
  · exact (hcontents item hnew).add container

namespace Context.Fits

variable {context : Context}

/-- A later store, in which containers have kept their kinds. -/
theorem withStore (h : context.Fits) {store : Store} (hstore : store.Fits)
    (hlater : ∀ value : Value, value.FitsIn context.store → value.FitsIn store) :
    Context.Fits { context with store := store } where
  store := hstore
  scopes frame hframe entry hentry := hlater entry.2 (h.scopes frame hframe entry hentry)
  output value hvalue := hlater value (h.output value hvalue)

theorem withScopes (h : context.Fits) {scopes : Scopes}
    (hscopes : ∀ frame ∈ scopes.frames, ∀ entry ∈ frame.entries, entry.2.FitsIn context.store) :
    Context.Fits { context with scopes := scopes } :=
  { h with scopes := hscopes }

theorem guarded : Guarded Context.Fits fun store value => value.FitsIn store where
  passesOn h := h.store.passesOn
  found h hvalue := by
    obtain ⟨frame, hframe, hfound⟩ := Scopes.exists_frame_of_getIn hvalue
    exact h.scopes frame hframe _ (Table.mem_of_getEntry? hfound)
  push h := h.withScopes (Scopes.forall_frames_push h.scopes (List.forall_mem_nil _))
  pop h := h.withScopes (Scopes.forall_frames_pop h.scopes)
  declare name h hvalue := by
    refine h.withScopes (Scopes.forall_frames_define (fun frame hframe entry hentry => ?_) h.scopes)
    rcases Table.mem_insertEntry hentry with hold | rfl
    · exact hframe entry hold
    · exact hvalue
  rebind h hvalue hassign := by
    refine h.withScopes
      (Scopes.forall_frames_assign? (fun frame hframe entry hentry => ?_) h.scopes hassign)
    rcases Table.mem_insertEntry hentry with hold | rfl
    · exact hframe entry hold
    · exact hvalue
  print h hvalue := by
    refine { h with output := fun value hmem => ?_ }
    rcases Array.mem_push.mp hmem with hold | rfl
    · exact h.output value hold
    · exact hvalue
  effect h heffect := h.withStore (h.store.apply heffect.written) fun _ hvalue => hvalue.apply _
  container h hcontents :=
    ⟨h.withStore (h.store.add hcontents) fun _ hvalue => hvalue.add _,
      Value.fitsIn_reference _ _⟩
  changed effect hvalue := hvalue.apply effect
  added container hvalue := hvalue.add container
  functions _ h := { h with }
  callDepth _ h := { h with }
  random _ h := { h with }

theorem pervades : Pervades Context.Fits :=
  guarded.pervades fun h => { h with output := by simp }

end Context.Fits

/-- What holds when a session begins holds between its programs. -/
theorem Pervades.of_session {keeps : Context → Prop} (h : Pervades keeps) {start last : Context}
    {programs : List Program} {printed handed : Array Value}
    (hsession : Session start programs printed handed last) (hstart : keeps start) :
    keeps last := by
  induction hsession with
  | nil => exact hstart
  | ok hprogram _ ih => exact ih (h.of_run (.finishes (.inl ⟨_, hprogram⟩)) hstart)
  | fault hprogram _ ih => exact ih (h.of_run (.finishes (.inr ⟨_, hprogram⟩)) hstart)

theorem Context.fits_initial (config : Config) (random : RandomSource) :
    Context.Fits { config := config, random := random } where
  store _ item hitem := by simp [Store.contents, Store.get?, Store.empty] at hitem
  scopes := List.forall_mem_singleton.mpr (List.forall_mem_nil _)
  output := by simp

section

variable {fuel : Nat} {context later : Context} (hcontext : context.Fits)

include hcontext

/-- The value that an expression gives. -/
theorem eval_fits {expr : Expr} (h : eval fuel expr context = .ok value later) :
    value.FitsIn later.store := by
  have hguards := (Context.Fits.guarded.guards_eval_exec fuel).1 [] expr
  exact (hguards.of_ok hcontext h).2 value List.mem_cons_self

/-- The values that expressions give in turn. -/
theorem evalAll_fits {exprs : List Expr} {values : List Value}
    (h : evalAll (eval fuel) exprs context = .ok values later) :
    ∀ value ∈ values, value.FitsIn later.store := by
  have heval := (Context.Fits.guarded.guards_eval_exec fuel).1
  exact ((Context.Fits.guarded.guards_evalAll heval exprs).of_ok hcontext h).2

/-- The value of a return that is on its way out of a function. -/
theorem exec_fits {statement : Stmt} {line : Nat}
    (h : exec fuel statement context = .ok (.returned value line) later) :
    value.FitsIn later.store := by
  have hguards := (Context.Fits.guarded.guards_eval_exec fuel).2 [] statement
  exact (hguards.of_ok hcontext h).2 value List.mem_cons_self

end

/-- The values that a program hands over. -/
theorem evaluate_fits {fuel : Nat} {program : Program} {output : Array Value}
    {start last : Context} (hstart : start.Fits)
    (h : program.evaluate fuel start = .ok output last) :
    ∀ value ∈ output, value.FitsIn last.store := by
  obtain ⟨context, hblock, rfl, rfl⟩ := Program.evaluate_eq_ok.mp h
  have hcontext := ((Context.Fits.pervades.keeps_block fuel program).of_ok hstart hblock).1
  exact hcontext.output

end Bhasha
