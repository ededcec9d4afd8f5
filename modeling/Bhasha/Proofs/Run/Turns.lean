import Bhasha.Proofs.Run.Succession

/-!
# Executed tasks do not mix

Of two tasks that are executed anywhere in a run, one is executed inside the other, or one has ended
when the other begins.  So the states of a run come one after the other, as far as the containers
and their kinds are concerned: of any two states, one has all the containers of the other.
-/

namespace Bhasha

/-- One of two tasks is executed inside the other, or it has ended when the other begins. -/
inductive Unmixed (fuel : Nat) (task : Task) (begun : Context) (fuel' : Nat) (task' : Task)
    (begun' : Context) : Prop where
  | inside {bodies : Nat} :
      Leads fuel task begun bodies fuel' task' begun' → Unmixed fuel task begun fuel' task' begun'
  | around {bodies : Nat} :
      Leads fuel' task' begun' bodies fuel task begun → Unmixed fuel task begun fuel' task' begun'
  | earlier : task.Passed fuel begun begun' → Unmixed fuel task begun fuel' task' begun'
  | later : task'.Passed fuel' begun' begun → Unmixed fuel task begun fuel' task' begun'

/-- The task begins or ends in the state. -/
def Task.Touches (fuel : Nat) (task : Task) (begun context : Context) : Prop :=
  context = begun ∨ (task.action fuel begun).LeavesIn context

/-- The program begins in the state, or a task that is executed in its run begins or ends there. -/
def Program.Reaches (program : Program) (fuel : Nat) (start context : Context) : Prop :=
  context = start ∨ ∃ bodies fuel' task begun,
    program.Executes fuel start bodies fuel' task begun ∧ task.Touches fuel' begun context

variable {α : Type} {fuel fuel' fuel'' bodies bodies' : Nat} {task next task' next' : Task}
  {before begun begun' middle middle' after context later start : Context} {program : Program}

theorem Outcome.LeavesIn.unique {outcome : Outcome α} (h : outcome.LeavesIn after)
    (h' : outcome.LeavesIn later) : after = later := by
  rcases h with ⟨value, rfl⟩ | ⟨raised, rfl⟩ <;> rcases h' with ⟨_, h'⟩ | ⟨_, h'⟩ <;>
    cases h' <;> rfl

namespace Leads

theorem trans (h : Leads fuel task before bodies fuel' next middle)
    (hrest : Leads fuel' next middle bodies' fuel'' next' after) :
    Leads fuel task before (bodies' + bodies) fuel'' next' after := by
  induction h with
  | refl => exact hrest
  | needs hneeds _ ih => exact .needs hneeds (ih hrest)
  | enters henters _ ih => exact .enters henters (ih hrest)

/-- A task leads to itself, or it starts a task that leads on. -/
theorem first_step (h : Leads fuel task before bodies fuel' next begun) :
    (fuel' = fuel ∧ next = task ∧ begun = before) ∨
      ∃ less first middle inner, fuel = less + 1 ∧ task.Starts less before first middle ∧
        Leads less first middle inner fuel' next begun := by
  cases h with
  | refl => exact .inl ⟨rfl, rfl, rfl⟩
  | needs hneeds hrest => exact .inr ⟨_, _, _, _, rfl, .inl hneeds, hrest⟩
  | enters henters hrest => exact .inr ⟨_, _, _, _, rfl, .inr henters, hrest⟩

theorem kindsStay (h : Leads fuel task before bodies fuel' next begun) :
    before.store.KindsStay begun.store :=
  h.keepsStore (lasting_kindsStay before.store) (.refl _)

/-- When a task has ended, so has everything in it. -/
theorem passed (h : Leads fuel task before bodies fuel' next begun)
    (hpassed : task.Passed fuel before later) : next.Passed fuel' begun later := by
  induction h with
  | refl => exact hpassed
  | needs hneeds _ ih =>
      obtain ⟨ended, hended, hlater⟩ := hpassed
      exact ih (((schedules_action _ _).ends (.inl hneeds) hended).trans hlater)
  | enters henters _ ih =>
      obtain ⟨ended, hended, hlater⟩ := hpassed
      exact ih (((schedules_action _ _).ends (.inr henters) hended).trans hlater)

end Leads

/-- Tasks inside parts of one action do not mix if tasks inside the same part do not. -/
theorem Action.Schedules.unmixed {parts : Context → Task → Context → Prop} {action : Action α}
    {first first' : Task} (hschedules : Schedules fuel parts action)
    (hpart : parts before first middle) (hpart' : parts before first' middle')
    (hleads : Leads fuel first middle bodies fuel' task begun)
    (hleads' : Leads fuel first' middle' bodies' fuel'' task' begun')
    (hsame : first = first' → middle = middle' → Unmixed fuel' task begun fuel'' task' begun') :
    Unmixed fuel' task begun fuel'' task' begun' := by
  rcases hschedules.apart hpart hpart' with ⟨hfirst, hmiddle⟩ | hpassed | hpassed
  · exact hsame hfirst hmiddle
  · exact .earlier ((hleads.passed hpassed).trans hleads'.kindsStay)
  · exact .later ((hleads'.passed hpassed).trans hleads.kindsStay)

theorem Leads.unmixed (h : Leads fuel task before bodies fuel' next begun)
    (h' : Leads fuel task before bodies' fuel'' next' begun') :
    Unmixed fuel' next begun fuel'' next' begun' := by
  induction fuel generalizing task before bodies bodies' with
  | zero =>
      rcases h.first_step with ⟨rfl, rfl, rfl⟩ | ⟨_, _, _, _, hfuel, -⟩
      · exact .inside h'
      · cases hfuel
  | succ fuel ih =>
      rcases h.first_step with ⟨rfl, rfl, rfl⟩ | ⟨_, first, middle, inner, hfuel, hstarts, hleads⟩
      · exact .inside h'
      rcases h'.first_step with
        ⟨rfl, rfl, rfl⟩ | ⟨_, first', middle', inner', hfuel', hstarts', hleads'⟩
      · exact .around h
      cases hfuel
      cases hfuel'
      apply (schedules_action fuel task).unmixed hstarts hstarts' hleads hleads'
      rintro rfl rfl
      exact ih hleads hleads'

theorem Program.Executes.unmixed (h : program.Executes fuel start bodies fuel' task begun)
    (h' : program.Executes fuel start bodies' fuel'' task' begun') :
    Unmixed fuel' task begun fuel'' task' begun' := by
  obtain ⟨first, middle, hturn, hleads⟩ := h
  obtain ⟨first', middle', hturn', hleads'⟩ := h'
  apply (schedules_block fuel program).unmixed hturn hturn' hleads hleads'
  rintro rfl rfl
  exact hleads.unmixed hleads'

namespace Task.Touches

theorem kindsStay (h : task.Touches fuel begun context) : begun.store.KindsStay context.store := by
  rcases h with rfl | hends
  · exact .refl _
  · exact (keepsStore_action (lasting_kindsStay begun.store) fuel task).of_leavesIn (.refl _) hends

theorem of_passed (h : task.Touches fuel begun context) (hpassed : task.Passed fuel begun later) :
    context.store.KindsStay later.store := by
  obtain ⟨ended, hended, hlater⟩ := hpassed
  rcases h with rfl | hends
  · exact Store.KindsStay.trans (kindsStay (.inr hended)) hlater
  · cases hends.unique hended
    exact hlater

/-- A task inside another one begins and ends while the other one goes on. -/
theorem of_leads (hleads : Leads fuel task begun bodies fuel' task' begun')
    (h : task.Touches fuel begun context) (h' : task'.Touches fuel' begun' later) :
    context.store.KindsStay later.store ∨ later.store.KindsStay context.store := by
  rcases h with rfl | hends
  · exact .inl (hleads.kindsStay.trans h'.kindsStay)
  · exact .inr (h'.of_passed (hleads.passed ⟨context, hends, .refl _⟩))

theorem of_unmixed (hunmixed : Unmixed fuel task begun fuel' task' begun')
    (h : task.Touches fuel begun context) (h' : task'.Touches fuel' begun' later) :
    context.store.KindsStay later.store ∨ later.store.KindsStay context.store := by
  cases hunmixed with
  | inside hleads => exact of_leads hleads h h'
  | around hleads => exact (of_leads hleads h' h).symm
  | earlier hpassed => exact .inl ((h.of_passed hpassed).trans h'.kindsStay)
  | later hpassed => exact .inr ((h'.of_passed hpassed).trans h.kindsStay)

end Task.Touches

theorem Program.Executes.kindsStay (h : program.Executes fuel start bodies fuel' task begun) :
    start.store.KindsStay begun.store := by
  obtain ⟨first, middle, hturn, hleads⟩ := h
  exact ((schedules_block fuel program).begins hturn).trans hleads.kindsStay

theorem Program.Reaches.after_start (h : program.Reaches fuel start context) :
    start.store.KindsStay context.store := by
  rcases h with rfl | ⟨bodies, left, task, begun, hexecutes, htouches⟩
  · exact .refl _
  · exact hexecutes.kindsStay.trans htouches.kindsStay

theorem Program.Reaches.before_end (h : program.Reaches fuel start context)
    (hends : (execBlock (exec fuel) program start).LeavesIn after) :
    context.store.KindsStay after.store := by
  rcases h with rfl | ⟨bodies, left, task, begun, ⟨first, middle, hturn, hleads⟩, htouches⟩
  · exact (schedules_block fuel program).grows hends
  · exact htouches.of_passed (hleads.passed ((schedules_block fuel program).ends hturn hends))

/-- Of two states that a program reaches, one has the containers of the other, of the same kinds. -/
theorem Program.Reaches.comparable (h : program.Reaches fuel start context)
    (h' : program.Reaches fuel start later) :
    context.store.KindsStay later.store ∨ later.store.KindsStay context.store := by
  rcases h with rfl | ⟨bodies, left, task, begun, hexecutes, htouches⟩
  · rcases h' with rfl | ⟨bodies', left', task', begun', hexecutes', htouches'⟩
    · exact .inl (.refl _)
    · exact .inl (hexecutes'.kindsStay.trans htouches'.kindsStay)
  · rcases h' with rfl | ⟨bodies', left', task', begun', hexecutes', htouches'⟩
    · exact .inr (hexecutes.kindsStay.trans htouches.kindsStay)
    · exact Task.Touches.of_unmixed (hexecutes.unmixed hexecutes') htouches htouches'

/-- Expressions are evaluated up to the end of the last one. -/
theorem touched_of_evalAll {exprs : List Expr} {values : List Value}
    (h : evalAll (eval fuel) exprs before = .ok values after) :
    after = before ∨ ∃ next begun, InTurn fuel (exprs.map .eval) before next begun ∧
      next.Touches fuel begun after := by
  induction exprs generalizing before values with
  | nil =>
      cases h
      exact .inl rfl
  | cons expr rest ih =>
      obtain ⟨value, middle, hvalue, hrest⟩ := Action.bind_eq_ok.mp h
      obtain ⟨others, last, hothers, hlast⟩ := Action.bind_eq_ok.mp hrest
      cases hlast
      have hfirst : (Task.eval expr).action fuel before = .ok .normal middle :=
        action_eval_eq_ok.mpr ⟨value, hvalue⟩
      rcases ih hothers with rfl | ⟨next, begun, hturn, htouches⟩
      · exact .inr ⟨_, _, .first, .inr (.inl ⟨_, hfirst⟩)⟩
      · exact .inr ⟨next, begun, .later hfirst hturn, htouches⟩

theorem touched_of_execBlock {block : List Stmt}
    (h : (execBlock (exec fuel) block before).LeavesIn after) :
    after = before ∨ ∃ next begun, InTurn fuel (block.map .exec) before next begun ∧
      next.Touches fuel begun after := by
  induction block generalizing before with
  | nil =>
      rcases h with ⟨flow, hok⟩ | ⟨raised, hfault⟩
      · cases hok
        exact .inl rfl
      · cases hfault
  | cons statement rest ih =>
      rcases Action.leavesIn_bind h with hfault | ⟨flow, middle, hflow, hrest⟩
      · exact .inr ⟨_, _, .first, .inr (.inr hfault)⟩
      · have hlast : (Task.exec statement).Touches fuel before middle := .inr (.inl ⟨flow, hflow⟩)
        cases flow with
        | normal =>
            rcases ih hrest with rfl | ⟨next, begun, hturn, htouches⟩
            · exact .inr ⟨_, _, .first, hlast⟩
            · exact .inr ⟨next, begun, .later hflow hturn, htouches⟩
        | _ =>
            cases hrest.unique (.inl ⟨_, rfl⟩)
            exact .inr ⟨_, _, .first, hlast⟩

theorem store_of_defineAll {bindings : List (String × Value)}
    (h : defineAll bindings before = .ok () after) : after.store = before.store := by
  induction bindings generalizing before with
  | nil =>
      cases h
      rfl
  | cons binding rest ih =>
      have hrest : defineAll rest (before.bound binding.1 binding.2) = .ok () after := h
      have hstore := ih hrest
      exact hstore

/-- When a program ends, its statements have ended with the same store. -/
theorem exists_block_of_evaluate (h : (program.evaluate fuel start).LeavesIn after) :
    ∃ last, (execBlock (exec fuel) program start).LeavesIn last ∧ after.store = last.store := by
  rcases Action.leavesIn_bind h with hfault | ⟨flow, last, hflow, hfinish⟩
  · exact ⟨after, .inr hfault, rfl⟩
  · refine ⟨last, .inl ⟨flow, hflow⟩, ?_⟩
    cases flow <;> rcases hfinish with ⟨output, hfinish⟩ | ⟨raised, hfinish⟩ <;>
      cases hfinish <;> rfl

namespace Program

theorem Executes.then_leads (h : program.Executes fuel start bodies fuel' task begun)
    (hleads : Leads fuel' task begun bodies' fuel'' next middle) :
    ∃ bodies, program.Executes fuel start bodies fuel'' next middle := by
  obtain ⟨first, before, hturn, hfirst⟩ := h
  exact ⟨_, first, before, hturn, hfirst.trans hleads⟩

theorem Reaches.of_leads (h : program.Executes fuel start bodies fuel' task begun)
    (hleads : Leads fuel' task begun bodies' fuel'' next middle)
    (htouches : next.Touches fuel'' middle context) : program.Reaches fuel start context := by
  obtain ⟨bodies, hexecutes⟩ := h.then_leads hleads
  exact .inr ⟨bodies, _, _, _, hexecutes, htouches⟩

/-- While the parameters are bound, the store is that in which the arguments have been
evaluated. -/
theorem Visits.reaches_of_opens {call : Expr} {opened : Context} {function : Function}
    {values : List Value} {bound : List (String × Value)}
    (h : program.Executes fuel start bodies (fuel' + 1) (.eval call) begun)
    (hopens : Opens fuel' call begun function values opened)
    (hdefine : defineAll bound opened = .ok () after) :
    ∃ moment, program.Reaches fuel start moment ∧ after.store.kinds = moment.store.kinds := by
  obtain @⟨name, arguments, line, _, _, _, middle, hname, hfunction, harguments, -, -⟩ := hopens
  have hstore : after.store = middle.entered.store := store_of_defineAll hdefine
  refine ⟨middle, ?_, congrArg Store.kinds hstore⟩
  rcases touched_of_evalAll harguments with rfl | ⟨next, inner, hturn, htouches⟩
  · exact .inr ⟨_, _, _, _, h, .inl rfl⟩
  · have hready : (Expr.call name arguments line).Ready begun :=
      .inr (Option.isSome_iff_exists.mpr ⟨_, hfunction⟩)
    exact .of_leads h (.needs (.operand hready hturn) .refl) htouches

/-- In every state of a run there are the containers of a state in which a task begins or ends. -/
theorem Visits.reaches (h : program.Visits fuel start bodies context) :
    ∃ moment, program.Reaches fuel start moment ∧ context.store.kinds = moment.store.kinds := by
  cases h with
  | starts => exact ⟨context, .inl rfl, rfl⟩
  | begins hexecutes => exact ⟨context, .inr ⟨_, _, _, _, hexecutes, .inl rfl⟩, rfl⟩
  | ends hexecutes hends => exact ⟨context, .inr ⟨_, _, _, _, hexecutes, .inr hends⟩, rfl⟩
  | enters hexecutes hopens _ hdefine => exact reaches_of_opens hexecutes hopens hdefine
  | leaves hexecutes hopens hdefine hends =>
      rcases touched_of_execBlock hends with rfl | ⟨next, inner, hturn, htouches⟩
      · exact reaches_of_opens hexecutes hopens hdefine
      · obtain ⟨hname, hfunction, harguments, hcount, hroom⟩ := hopens
        exact ⟨context, .of_leads hexecutes (.enters (.body hname hfunction harguments hcount hroom
          hdefine hturn) .refl) htouches, rfl⟩
  | finishes hends =>
      obtain ⟨last, hblock, hstore⟩ := exists_block_of_evaluate hends
      refine ⟨last, ?_, congrArg Store.kinds hstore⟩
      rcases touched_of_execBlock hblock with rfl | ⟨next, inner, hturn, htouches⟩
      · exact .inl rfl
      · exact .inr ⟨0, _, _, _, ⟨next, inner, hturn, .refl⟩, htouches⟩

theorem Visits.after_start (h : program.Visits fuel start bodies context) :
    start.store.KindsStay context.store := by
  obtain ⟨moment, hmoment, hkinds⟩ := h.reaches
  unfold Store.KindsStay
  rw [hkinds]
  exact hmoment.after_start

theorem Visits.before_end (h : program.Visits fuel start bodies context)
    (hends : (program.evaluate fuel start).LeavesIn after) :
    context.store.KindsStay after.store := by
  obtain ⟨moment, hmoment, hkinds⟩ := h.reaches
  obtain ⟨last, hblock, hstore⟩ := exists_block_of_evaluate hends
  unfold Store.KindsStay
  rw [hkinds, hstore]
  exact hmoment.before_end hblock

/-- No container changes its kind: of two states of a run, one has the containers of the other, of
the same kinds. -/
theorem Visits.comparable (h : program.Visits fuel start bodies context)
    (h' : program.Visits fuel start bodies' later) :
    context.store.KindsStay later.store ∨ later.store.KindsStay context.store := by
  obtain ⟨moment, hmoment, hkinds⟩ := h.reaches
  obtain ⟨moment', hmoment', hkinds'⟩ := h'.reaches
  unfold Store.KindsStay
  rw [hkinds, hkinds']
  exact hmoment.comparable hmoment'

end Program

end Bhasha
