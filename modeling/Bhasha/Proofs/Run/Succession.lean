import Bhasha.Proofs.Run.RecordKeys
import Bhasha.Proofs.Run.Rounds
import Bhasha.Proofs.Store.Kinds

/-!
# One task after the other

The tasks that an action executes take turns: of two of them, one has ended when the other begins.
And the containers that are there when one ends are there, with their kinds, when a later one
begins.  Here this is shown for what a task executes itself, in its own text or in the body of the
function that it calls.
-/

namespace Bhasha

/-- The task has ended, and what it has made by then is there in the later state. -/
def Task.Passed (fuel : Nat) (task : Task) (begun later : Context) : Prop :=
  ∃ ended, (task.action fuel begun).LeavesIn ended ∧ ended.store.KindsStay later.store

/-- The action executes the parts one after the other, and keeps the kinds of containers. -/
structure Action.Schedules {α : Type} (fuel : Nat) (parts : Context → Task → Context → Prop)
    (action : Action α) : Prop where
  begins : ∀ {before begun : Context} {task : Task}, parts before task begun →
    before.store.KindsStay begun.store
  apart : ∀ {before begun begun' : Context} {task task' : Task}, parts before task begun →
    parts before task' begun' →
    (task = task' ∧ begun = begun') ∨ task.Passed fuel begun begun' ∨ task'.Passed fuel begun' begun
  ends : ∀ {before begun after : Context} {task : Task}, parts before task begun →
    (action before).LeavesIn after → task.Passed fuel begun after
  grows : ∀ {before after : Context}, (action before).LeavesIn after →
    before.store.KindsStay after.store

variable {α β : Type} {fuel : Nat} {before begun after : Context} {task : Task}

theorem lasting_kindsStay (before : Store) : Store.Lasting before.KindsStay where
  effect effect h := h.trans (Store.kindsStay_apply effect _)
  list _ h := h.trans (Store.kindsStay_add _ _)
  record _ h := h.trans (Store.kindsStay_add _ _)

theorem Task.Passed.trans {middle : Context} (h : task.Passed fuel begun middle)
    (hlater : middle.store.KindsStay after.store) : task.Passed fuel begun after := by
  obtain ⟨ended, hended, hmiddle⟩ := h
  exact ⟨ended, hended, hmiddle.trans hlater⟩

theorem leavesIn_action_eval {expr : Expr} :
    ((Task.eval expr).action fuel before).LeavesIn after ↔
      (eval fuel expr before).LeavesIn after := by
  have haction : (Task.eval expr).action fuel = eval fuel expr >>= fun _ => pure .normal := rfl
  rw [haction, Action.bind_apply]
  cases eval fuel expr before <;> simp [Outcome.LeavesIn]

namespace Action

variable {parts : Context → Task → Context → Prop} {first : Action α} {next : α → Action β}

theorem leavesIn_bind (h : ((first >>= next) before).LeavesIn after) :
    (∃ raised, first before = .fault raised after) ∨
      ∃ value middle, first before = .ok value middle ∧ (next value middle).LeavesIn after := by
  rcases h with ⟨value, hok⟩ | ⟨raised, hfault⟩
  · obtain ⟨value, middle, hfirst, hnext⟩ := bind_eq_ok.mp hok
    exact .inr ⟨value, middle, hfirst, .inl ⟨_, hnext⟩⟩
  · rcases bind_eq_fault.mp hfault with hfirst | ⟨value, middle, hfirst, hnext⟩
    · exact .inl ⟨raised, hfirst⟩
    · exact .inr ⟨value, middle, hfirst, .inr ⟨_, hnext⟩⟩

theorem leavesIn_withScope {body : Action α} (h : (withScope body before).LeavesIn after) :
    ∃ inner, (body before.pushed).LeavesIn inner ∧ after.store = inner.store := by
  unfold withScope Outcome.LeavesIn at h
  unfold Context.pushed Outcome.LeavesIn
  cases hbody : body { before with scopes := before.scopes.push } <;> rw [hbody] at h <;>
    simp at h <;> subst h <;> simp

theorem leavesIn_deeper {body : Action α} (h : (deeper body before).LeavesIn after) :
    ∃ inner, (body { before with callDepth := before.callDepth + 1 }).LeavesIn inner ∧
      after.store = inner.store := by
  unfold deeper Outcome.LeavesIn at h
  unfold Outcome.LeavesIn
  cases hbody : body { before with callDepth := before.callDepth + 1 } <;> rw [hbody] at h <;>
    simp at h <;> subst h <;> simp

theorem leavesIn_handling {body : Action α} {handler : Fault → Action α}
    (h : (handling body handler before).LeavesIn after) :
    (∃ value, body before = .ok value after) ∨
      ∃ raised middle, body before = .fault raised middle ∧
        (handler raised middle).LeavesIn after := by
  unfold handling at h
  cases hbody : body before <;> rw [hbody] at h <;> simp_all [Outcome.LeavesIn]

namespace Schedules

theorem mono {fewer : Context → Task → Context → Prop} {action : Action α}
    (h : Schedules fuel parts action)
    (hfewer : ∀ {before : Context} {task : Task} {begun : Context}, fewer before task begun →
      parts before task begun) : Schedules fuel fewer action where
  begins hpart := h.begins (hfewer hpart)
  apart hpart hother := h.apart (hfewer hpart) (hfewer hother)
  ends hpart hafter := h.ends (hfewer hpart) hafter
  grows := h.grows

/-- One action goes before another one, which takes over from it in a state that it leaves. -/
theorem followed {ι : Type} {second : ι → Action β} {whole : Action β}
    {goes : Context → ι → Context → Prop} {parts' : ι → Context → Task → Context → Prop}
    (hfirst : Schedules fuel parts first)
    (hsecond : ∀ index, Schedules fuel (parts' index) (second index))
    (hleaves : ∀ {before middle : Context} {index : ι}, goes before index middle →
      (first before).LeavesIn middle)
    (hsame : ∀ {before middle middle' : Context} {index index' : ι}, goes before index middle →
      goes before index' middle' → index = index' ∧ middle = middle')
    (hends : ∀ {before after : Context}, (whole before).LeavesIn after →
      ((first before).LeavesIn after ∧ ∀ index middle, ¬goes before index middle) ∨
        ∃ index middle, goes before index middle ∧ (second index middle).LeavesIn after) :
    Schedules fuel
      (fun before task begun => parts before task begun ∨
        ∃ index middle, goes before index middle ∧ parts' index middle task begun) whole where
  begins := by
    rintro before begun task (hpart | ⟨index, middle, hgoes, hpart⟩)
    · exact hfirst.begins hpart
    · exact (hfirst.grows (hleaves hgoes)).trans ((hsecond index).begins hpart)
  apart := by
    rintro before begun begun' task task' (hpart | ⟨index, middle, hgoes, hpart⟩)
      (hpart' | ⟨index', middle', hgoes', hpart'⟩)
    · exact hfirst.apart hpart hpart'
    · have hpassed := hfirst.ends hpart (hleaves hgoes')
      exact .inr (.inl (hpassed.trans ((hsecond index').begins hpart')))
    · have hpassed := hfirst.ends hpart' (hleaves hgoes)
      exact .inr (.inr (hpassed.trans ((hsecond index).begins hpart)))
    · obtain ⟨rfl, rfl⟩ := hsame hgoes hgoes'
      exact (hsecond index).apart hpart hpart'
  ends := by
    intro before begun after task hpart hafter
    rcases hends hafter with ⟨hleft, hnone⟩ | ⟨index, middle, hgoes, hrest⟩
    · rcases hpart with hpart | ⟨index, middle, hgoes, -⟩
      · exact hfirst.ends hpart hleft
      · exact absurd hgoes (hnone index middle)
    · rcases hpart with hpart | ⟨index', middle', hgoes', hpart⟩
      · exact (hfirst.ends hpart (hleaves hgoes)).trans ((hsecond index).grows hrest)
      · obtain ⟨rfl, rfl⟩ := hsame hgoes hgoes'
        exact (hsecond index).ends hpart hrest
  grows := by
    intro before after hafter
    rcases hends hafter with ⟨hleft, -⟩ | ⟨index, middle, hgoes, hrest⟩
    · exact hfirst.grows hleft
    · exact (hfirst.grows (hleaves hgoes)).trans ((hsecond index).grows hrest)

theorem bind {parts' : α → Context → Task → Context → Prop} (hfirst : Schedules fuel parts first)
    (hnext : ∀ value, Schedules fuel (parts' value) (next value)) :
    Schedules fuel
      (fun before task begun => parts before task begun ∨
        ∃ value middle, first before = .ok value middle ∧ parts' value middle task begun)
      (first >>= next) := by
  refine hfirst.followed hnext (fun hvalue => .inl ⟨_, hvalue⟩) (fun hvalue hvalue' => ?_)
    fun hafter => ?_
  · cases hvalue.symm.trans hvalue'
    exact ⟨rfl, rfl⟩
  · rcases leavesIn_bind hafter with ⟨raised, hfault⟩ | hrest
    · exact .inl ⟨.inr ⟨raised, hfault⟩, fun _ _ hvalue => nomatch hvalue.symm.trans hfault⟩
    · exact .inr hrest

theorem handling {body : Action α} {handler : Fault → Action α}
    {parts' : Fault → Context → Task → Context → Prop} (hbody : Schedules fuel parts body)
    (hhandler : ∀ raised, Schedules fuel (parts' raised) (handler raised)) :
    Schedules fuel
      (fun before task begun => parts before task begun ∨
        ∃ raised middle, body before = .fault raised middle ∧ parts' raised middle task begun)
      (Action.handling body handler) := by
  refine hbody.followed hhandler (fun hfault => .inr ⟨_, hfault⟩) (fun hfault hfault' => ?_)
    fun hafter => ?_
  · cases hfault.symm.trans hfault'
    exact ⟨rfl, rfl⟩
  · rcases leavesIn_handling hafter with ⟨value, hvalue⟩ | hrest
    · exact .inl ⟨.inl ⟨value, hvalue⟩, fun _ _ hfault => nomatch hfault.symm.trans hvalue⟩
    · exact .inr hrest

/-- The body runs in another state with the same store. -/
theorem within {body outer : Action α} {change : Context → Context}
    (h : Schedules fuel parts body) (hchange : ∀ context, (change context).store = context.store)
    (houter : ∀ {before after : Context}, (outer before).LeavesIn after →
      ∃ inner, (body (change before)).LeavesIn inner ∧ after.store = inner.store) :
    Schedules fuel (fun before => parts (change before)) outer where
  begins {before begun task} hpart := by
    have hbegun : (change before).store.KindsStay begun.store := h.begins hpart
    rwa [hchange] at hbegun
  apart hpart hother := h.apart hpart hother
  ends hpart hafter := by
    obtain ⟨inner, hinner, hstore⟩ := houter hafter
    exact (h.ends hpart hinner).trans (hstore ▸ .refl _)
  grows {before after} hafter := by
    obtain ⟨inner, hinner, hstore⟩ := houter hafter
    have hgrows : (change before).store.KindsStay inner.store := h.grows hinner
    rwa [hchange, ← hstore] at hgrows

theorem withScope {body : Action α} (h : Schedules fuel parts body) :
    Schedules fuel (fun before => parts before.pushed) (Action.withScope body) :=
  h.within (fun _ => rfl) leavesIn_withScope

theorem deeper {body : Action α} (h : Schedules fuel parts body) :
    Schedules fuel (fun before => parts { before with callDepth := before.callDepth + 1 })
      (Action.deeper body) :=
  h.within (fun _ => rfl) leavesIn_deeper

/-- The action only keeps kinds, and executes nothing. -/
theorem quiet {action : Action α} (h : ∀ store : Store, KeepsStore store.KindsStay action) :
    Schedules fuel (fun _ _ _ => False) action where
  begins := nofun
  apart := nofun
  ends := nofun
  grows {before _} hafter := (h before.store).of_leavesIn (.refl _) hafter

theorem after_quiet {parts' : α → Context → Task → Context → Prop}
    (hfirst : ∀ store : Store, KeepsStore store.KindsStay first)
    (hnext : ∀ value, Schedules fuel (parts' value) (next value)) :
    Schedules fuel
      (fun before task begun =>
        ∃ value middle, first before = .ok value middle ∧ parts' value middle task begun)
      (first >>= next) :=
  ((quiet hfirst).bind hnext).mono .inr

theorem then_quiet (h : Schedules fuel parts first)
    (hnext : ∀ value, ∀ store : Store, KeepsStore store.KindsStay (next value)) :
    Schedules fuel parts (first >>= next) :=
  (h.bind fun value => quiet (hnext value)).mono .inl

theorem when {condition : Prop} [Decidable condition] {yes no : Action α}
    (hyes : Schedules fuel parts yes) (hno : ∀ store : Store, KeepsStore store.KindsStay no) :
    Schedules fuel (fun before task begun => condition ∧ parts before task begun)
      (if condition then yes else no) := by
  split
  next => exact hyes.mono And.right
  next hfalse => exact (quiet hno).mono fun hpart => hfalse hpart.1

/-- The action may be refused on the spot. -/
theorem refusing {action outer : Action α} (h : Schedules fuel parts action)
    (houter : ∀ before, outer before = action before ∨
      ∃ raised, outer before = .fault raised before) :
    Schedules fuel
      (fun before task begun => outer before = action before ∧ parts before task begun) outer where
  begins hpart := h.begins hpart.2
  apart hpart hother := h.apart hpart.2 hother.2
  ends hpart hafter := h.ends hpart.2 (hpart.1 ▸ hafter)
  grows := by
    intro before after hafter
    rcases houter before with hsame | ⟨raised, hrefused⟩
    · exact h.grows (hsame ▸ hafter)
    · rw [hrefused] at hafter
      rcases hafter with ⟨value, hok⟩ | ⟨other, hfault⟩
      · cases hok
      · cases hfault
        exact .refl _

end Schedules

end Action

open Action

/-- An action that is the task itself, up to its value. -/
theorem schedules_task {action : Action α} (task : Task)
    (haction : ∀ {before after : Context}, (action before).LeavesIn after →
      (task.action fuel before).LeavesIn after) :
    Schedules fuel (fun before next begun => next = task ∧ begun = before) action where
  begins := by
    rintro before begun next ⟨-, rfl⟩
    exact .refl _
  apart := by
    rintro before begun begun' next next' ⟨rfl, rfl⟩ ⟨rfl, rfl⟩
    exact .inl ⟨rfl, rfl⟩
  ends := by
    rintro before begun after next ⟨rfl, rfl⟩ hafter
    exact ⟨after, haction hafter, .refl _⟩
  grows {before _} hafter :=
    (keepsStore_action (lasting_kindsStay before.store) fuel task).of_leavesIn (.refl _)
      (haction hafter)

theorem schedules_eval (fuel : Nat) (expr : Expr) :
    Schedules fuel (fun before next begun => next = .eval expr ∧ begun = before)
      (eval fuel expr) :=
  schedules_task (.eval expr) leavesIn_action_eval.mpr

theorem schedules_exec (fuel : Nat) (statement : Stmt) :
    Schedules fuel (fun before next begun => next = .exec statement ∧ begun = before)
      (exec fuel statement) :=
  schedules_task (.exec statement) id

/-- An expression is evaluated, and then the rest of them. -/
theorem schedules_operand {next : Value → Action β} {rest : List Expr} (expr : Expr)
    (hnext : ∀ value, Schedules fuel (InTurn fuel (rest.map .eval)) (next value)) :
    Schedules fuel (InTurn fuel ((expr :: rest).map .eval)) (eval fuel expr >>= next) := by
  refine ((schedules_eval fuel expr).bind hnext).mono fun hturn => ?_
  cases hturn with
  | first => exact .inl ⟨rfl, rfl⟩
  | later hfirst hrest =>
      obtain ⟨value, hvalue⟩ := action_eval_eq_ok.mp hfirst
      exact .inr ⟨value, _, hvalue, hrest⟩

theorem schedules_last {action : Action α}
    (h : ∀ store : Store, KeepsStore store.KindsStay action) :
    Schedules fuel (InTurn fuel (([] : List Expr).map .eval)) action :=
  (Schedules.quiet h).mono nofun

theorem schedules_evalAll (fuel : Nat) (exprs : List Expr) :
    Schedules fuel (InTurn fuel (exprs.map .eval)) (evalAll (eval fuel) exprs) := by
  induction exprs with
  | nil => exact schedules_last fun _ => keeps_pure trivial
  | cons expr rest ih =>
      exact schedules_operand expr fun value => ih.then_quiet fun _ _ => keeps_pure trivial

theorem schedules_evalEntries (entries : List (String × Expr)) (fields : Table Value) :
    Schedules fuel (InTurn fuel ((entries.map Prod.snd).map .eval))
      (evalEntries (eval fuel) fields entries) := by
  induction entries generalizing fields with
  | nil => exact schedules_last fun _ => keeps_pure trivial
  | cons entry rest ih => exact schedules_operand entry.2 fun value => ih _

theorem schedules_block (fuel : Nat) (block : List Stmt) :
    Schedules fuel (InTurn fuel (block.map .exec)) (execBlock (exec fuel) block) := by
  induction block with
  | nil => exact schedules_last fun _ => keeps_pure trivial
  | cons statement rest ih =>
      refine ((schedules_exec fuel statement).bind
        (?_ : ∀ flow : Flow, Schedules fuel (fun before task begun =>
          flow = .normal ∧ InTurn fuel (rest.map .exec) before task begun) _)).mono fun hturn => ?_
      · intro flow
        cases flow with
        | normal => exact ih.mono And.right
        | _ =>
            refine (Schedules.quiet fun _ => keeps_pure trivial).mono fun hpart => ?_
            cases hpart.1
      · cases hturn with
        | first => exact .inl ⟨rfl, rfl⟩
        | later hfirst hrest => exact .inr ⟨.normal, _, hfirst, rfl, hrest⟩

theorem schedules_evalNumber (expr : Expr) (line : Nat) :
    Schedules fuel (fun before next begun => next = .eval expr ∧ begun = before)
      (evalNumber (eval fuel) expr line) :=
  (schedules_eval fuel expr).then_quiet fun _ _ => keeps_ofExcept fun _ _ => trivial

theorem schedules_evalStep (step : Option Expr) (line : Nat) :
    Schedules fuel (fun before next begun => ∃ expr, step = some expr ∧ next = .eval expr ∧
      begun = before) (evalStep (eval fuel) step line) := by
  cases step with
  | none => exact (Schedules.quiet fun _ => keeps_pure trivial).mono nofun
  | some expr =>
      refine (schedules_evalNumber expr line).mono ?_
      rintro before task begun ⟨other, hother, htask, hbegun⟩
      cases hother
      exact ⟨htask, hbegun⟩

theorem schedules_nextRound {parts : Context → Task → Context → Prop} {next : Action Flow}
    (h : Schedules fuel parts next) (flow : Flow) :
    Schedules fuel (fun before task begun => flow.afterRound = none ∧ parts before task begun)
      (nextRound next flow) := by
  unfold nextRound
  cases flow.afterRound with
  | none => exact h.mono And.right
  | some last => exact (Schedules.quiet fun _ => keeps_pure trivial).mono nofun

theorem keepsStore_pure {kept : Store → Prop} (result : α) :
    KeepsStore kept (pure result : Action α) :=
  keeps_pure trivial

theorem schedules_whileRounds (condition : Expr) (body : List Stmt) (rounds : Nat) :
    Schedules fuel
      (fun before task begun => ∃ start,
        WhileRound (eval fuel condition) (execBlock (exec fuel) body) rounds before start ∧
          (task = .eval condition ∧ begun = start ∨
            ∃ value middle, eval fuel condition start = .ok value middle ∧ value.truthy = true ∧
              InTurn fuel (body.map .exec) middle task begun))
      (whileRounds (eval fuel condition) (execBlock (exec fuel) body) rounds) := by
  induction rounds with
  | zero =>
      have hnone : ∀ store : Store, KeepsStore store.KindsStay
          (whileRounds (eval fuel condition) (execBlock (exec fuel) body) 0) :=
        fun _ _ _ => trivial
      refine (Schedules.quiet hnone).mono ?_
      rintro before task begun ⟨start, hround, -⟩
      cases hround
  | succ rounds ih =>
      rw [whileRounds_succ]
      have hbody := (schedules_block fuel body).bind fun flow => schedules_nextRound ih flow
      refine ((schedules_eval fuel condition).bind fun value =>
        hbody.when fun _ => keepsStore_pure Flow.normal).mono ?_
      rintro before task begun ⟨start, hround, hpart⟩
      cases hround with
      | first =>
          rcases hpart with hcondition | ⟨value, middle, hvalue, htruthy, hturn⟩
          · exact .inl hcondition
          · exact .inr ⟨value, middle, hvalue, htruthy, .inl hturn⟩
      | next hvalue htruthy hflow hnext hround =>
          exact .inr ⟨_, _, hvalue, htruthy, .inr ⟨_, _, hflow, hnext, start, hround, hpart⟩⟩

theorem schedules_rangeRounds (name : String) (bound step : Float) (body : List Stmt)
    (rounds : Nat) (counter : Float) :
    Schedules fuel
      (fun before task begun => ∃ count last,
        RangeRound name bound step (execBlock (exec fuel) body) rounds counter before count last ∧
          inRange bound step count = true ∧
            InTurn fuel (body.map .exec) (last.bound name (.number count)) task begun)
      (rangeRounds name bound step (execBlock (exec fuel) body) rounds counter) := by
  induction rounds generalizing counter with
  | zero =>
      have hnone : ∀ store : Store, KeepsStore store.KindsStay
          (rangeRounds name bound step (execBlock (exec fuel) body) 0 counter) :=
        fun _ _ _ => trivial
      refine (Schedules.quiet hnone).mono ?_
      rintro before task begun ⟨count, last, hround, -⟩
      cases hround
  | succ rounds ih =>
      rw [rangeRounds_succ]
      have hdefine (store : Store) : KeepsStore store.KindsStay (define name (.number counter)) :=
        (lasting_kindsStay store).nested.keeps_define name _ 0
      have hround := (Schedules.after_quiet hdefine fun _ => schedules_block fuel body).bind
        fun flow => schedules_nextRound (ih (counter + step)) flow
      refine (hround.when fun _ => keepsStore_pure Flow.normal).mono ?_
      rintro before task begun ⟨count, last, hround, hin, hturn⟩
      cases hround with
      | first => exact ⟨hin, .inl ⟨(), _, rfl, hturn⟩⟩
      | next hin' hflow hnext hround =>
          exact ⟨hin', .inr ⟨_, _, hflow, hnext, count, last, hround, hin, hturn⟩⟩

/-- The body of a function runs in a state in which the parameters are bound. -/
theorem schedules_callFunction (fuel : Nat) (function : Function) (values : List Value)
    (line : Nat) :
    Schedules fuel
      (fun before task begun => values.length = function.parameters.length ∧
        before.callDepth < before.config.maxCallDepth ∧
        ∃ start, defineAll (function.parameters.zip values) before.entered = .ok () start ∧
          InTurn fuel (function.body.map .exec) start task begun)
      (callFunction (exec fuel) function values line) := by
  have hdefine (store : Store) : KeepsStore store.KindsStay
      (defineAll (function.parameters.zip values)) :=
    (lasting_kindsStay store).nested.keeps_defineAll _ 0
  have hbody := Schedules.after_quiet hdefine fun _ => schedules_block fuel function.body
  have hresult (flow : Flow) (store : Store) : KeepsStore store.KindsStay flow.toResult := by
    cases flow with
    | normal => exact keeps_pure trivial
    | returned value line => exact keeps_pure trivial
    | broke line => exact keeps_raise trivial
    | continued line => exact keeps_raise trivial
  have hrun : Schedules fuel _ (runBody (exec fuel) function values) :=
    hbody.withScope.deeper.then_quiet hresult
  refine (hrun.refusing fun before => ?_).mono ?_
  · unfold callFunction
    simp only
    split
    · exact .inr ⟨_, rfl⟩
    · split
      · exact .inr ⟨_, rfl⟩
      · exact .inl rfl
  · rintro before task begun ⟨hcount, hroom, start, hdefine, hturn⟩
    exact ⟨callFunction_of_room line hcount hroom, (), start, hdefine, hturn⟩

/-- What a task with one more unit of fuel executes itself: in its own text, or in the body of the
function that it calls. -/
def Task.Starts (fuel : Nat) (task : Task) (before : Context) (next : Task) (begun : Context) :
    Prop :=
  Needs fuel task before next begun ∨ Enters fuel task before next begun

theorem schedules_evalCall (name : String) (arguments : List Expr) (line : Nat) :
    Schedules fuel ((Task.eval (.call name arguments line)).Starts fuel)
      (evalCall (eval fuel) (exec fuel) name arguments line) := by
  unfold evalCall
  cases hname : Builtin.ofName? name with
  | some builtin =>
      have hcall (values : List Value) (store : Store) :
          KeepsStore store.KindsStay (callBuiltin builtin values line) :=
        (lasting_kindsStay store).steady.keeps_callBuiltin builtin values line
      refine ((schedules_evalAll fuel arguments).then_quiet hcall).mono ?_
      rintro before task begun (hneeds | henters)
      · cases hneeds with
        | operand _ hturn => exact hturn
      · cases henters with
        | body hnone => cases hname.symm.trans hnone
  | none =>
      have hfind (store : Store) : KeepsStore store.KindsStay (findFunction name line) := by
        intro context hcontext
        unfold findFunction
        cases context.functions.get? name with
        | some function => exact ⟨hcontext, trivial⟩
        | none => exact ⟨hcontext, trivial⟩
      have hcall (function : Function) := (schedules_evalAll fuel arguments).bind fun values =>
        schedules_callFunction fuel function values line
      refine (Schedules.after_quiet hfind hcall).mono ?_
      rintro before task begun (hneeds | henters)
      · cases hneeds with
        | operand hready hturn =>
            rcases hready with hbuiltin | hfunction
            · rw [hname] at hbuiltin
              cases hbuiltin
            · obtain ⟨function, hfunction⟩ := Option.isSome_iff_exists.mp hfunction
              exact ⟨function, before, findFunction_eq_ok.mpr ⟨hfunction, rfl⟩, .inl hturn⟩
      · cases henters with
        | body _ hfunction harguments hcount hroom hdefine hturn =>
            exact ⟨_, before, findFunction_eq_ok.mpr ⟨hfunction, rfl⟩,
              .inr ⟨_, _, harguments, hcount, hroom, _, hdefine, hturn⟩⟩

theorem schedules_evalWith (expr : Expr) :
    Schedules fuel ((Task.eval expr).Starts fuel) (evalWith (eval fuel) (exec fuel) expr) := by
  have hplain {expr : Expr}
      (h : Schedules fuel (InTurn fuel (expr.operands.map .eval))
        (evalWith (eval fuel) (exec fuel) expr))
      (hlogical : ∀ op left right line, expr ≠ .logical op left right line)
      (hcall : ∀ name arguments line, expr ≠ .call name arguments line) :
      Schedules fuel ((Task.eval expr).Starts fuel) (evalWith (eval fuel) (exec fuel) expr) := by
    refine h.mono ?_
    rintro before task begun (hneeds | henters)
    · cases hneeds with
      | operand _ hturn => exact hturn
      | right => exact absurd rfl (hlogical _ _ _ _)
    · cases henters with
      | body => exact absurd rfl (hcall _ _ _)
  have hsteady (store : Store) := (lasting_kindsStay store).steady
  cases expr with
  | literal value line => exact hplain (schedules_last fun _ => keepsStore_pure _) nofun nofun
  | var name line =>
      exact hplain (schedules_last fun store => (hsteady store).keeps_lookup name line) nofun nofun
  | unary op operand line =>
      refine hplain (schedules_operand operand fun value => schedules_last fun _ => ?_) nofun nofun
      exact keeps_ofExcept fun _ _ => trivial
  | binary op left right line =>
      refine hplain (schedules_operand left fun leftValue =>
        schedules_operand right fun rightValue => schedules_last fun store => ?_) nofun nofun
      exact (hsteady store).keeps_reading fun store => op.faultsAt_apply store leftValue rightValue
  | logical op left right line =>
      have hright (value : Value) :
          Schedules fuel
            (fun before next begun =>
              op.decides value = false ∧ next = .eval right ∧ begun = before)
            (if op.decides value then pure value else eval fuel right) := by
        cases op.decides value with
        | true => exact (Schedules.quiet fun _ => keepsStore_pure value).mono nofun
        | false => exact (schedules_eval fuel right).mono And.right
      refine ((schedules_eval fuel left).bind hright).mono ?_
      rintro before task begun (hneeds | henters)
      · cases hneeds with
        | operand _ hturn =>
            cases hturn with
            | first => exact .inl ⟨rfl, rfl⟩
            | later _ hrest => cases hrest
        | right hleft hdecides => exact .inr ⟨_, _, hleft, hdecides, rfl, rfl⟩
      · cases henters
  | list elements line =>
      refine hplain ((schedules_evalAll fuel elements).then_quiet fun values store => ?_)
        nofun nofun
      exact fun context hcontext => ⟨(hsteady store).list _ hcontext, trivial⟩
  | record entries line =>
      refine hplain ((schedules_evalEntries entries .empty).then_quiet fun fields store => ?_)
        nofun nofun
      exact fun context hcontext => ⟨hcontext.trans (Store.kindsStay_add _ _), trivial⟩
  | index target position line =>
      refine hplain (schedules_operand target fun targetValue =>
        schedules_operand position fun place => schedules_last fun store => ?_) nofun nofun
      exact (hsteady store).keeps_reading fun store => targetValue.faultsAt_readIndex store place
  | property target name line =>
      refine hplain (schedules_operand target fun targetValue => schedules_last fun store => ?_)
        nofun nofun
      exact (hsteady store).keeps_reading fun store => targetValue.faultsAt_readProperty store name
  | call name arguments line => exact schedules_evalCall name arguments line

theorem keepsStore_writing {store : Store} {write : Store → Except Halt Effect} :
    KeepsStore store.KindsStay
      (writing fun store => (write store).map fun effect => (Flow.normal, effect)) := by
  intro context hcontext
  exact ends_writing
    (fun flow effect _ => ⟨hcontext.trans (Store.kindsStay_apply effect _), trivial⟩)
    (fun _ _ => ⟨hcontext, trivial⟩)

/-- The expressions of a statement come after its target has been found. -/
theorem schedules_target {name : String} {line : Nat} {operands : List Expr}
    {next : Value → Action Flow}
    (h : ∀ target, Schedules fuel (InTurn fuel (operands.map .eval)) (next target)) :
    Schedules fuel
      (fun before task begun => (before.scopes.get? name).isSome ∧
        InTurn fuel (operands.map .eval) before task begun)
      (lookup name line >>= next) := by
  have hlookup (store : Store) : KeepsStore store.KindsStay (lookup name line) :=
    (lasting_kindsStay store).steady.keeps_lookup name line
  refine (Schedules.after_quiet hlookup h).mono ?_
  rintro before task begun ⟨hbound, hturn⟩
  obtain ⟨target, htarget⟩ := Option.isSome_iff_exists.mp hbound
  exact ⟨target, before, lookup_eq_ok.mpr ⟨htarget, rfl⟩, hturn⟩

theorem schedules_branch (condition : Expr) (yes : List Stmt) (no : Option (List Stmt))
    (line rounds : Nat) :
    Schedules fuel ((Task.exec (.branch condition yes no line)).Starts fuel)
      (execWith (eval fuel) (exec fuel) rounds (.branch condition yes no line)) := by
  have hblock (value : Value) :
      Schedules fuel (InTurn fuel ((if value.truthy then yes else no.getD []).map .exec))
        (if value.truthy then execBlock (exec fuel) yes
          else execBlock (exec fuel) (no.getD [])) := by
    cases value.truthy with
    | true => exact schedules_block fuel yes
    | false => exact schedules_block fuel (no.getD [])
  refine ((schedules_eval fuel condition).bind hblock).mono ?_
  rintro before task begun (hneeds | henters)
  · cases hneeds with
    | value _ hturn =>
        cases hturn with
        | first => exact .inl ⟨rfl, rfl⟩
        | later _ hrest => cases hrest
    | branch hcondition hturn => exact .inr ⟨_, _, hcondition, hturn⟩
  · cases henters

theorem schedules_range (counter : String) (first bound : Expr) (step : Option Expr)
    (body : List Stmt) (line : Nat) :
    Schedules fuel ((Task.exec (.range counter first bound step body line)).Starts fuel)
      (execWith (eval fuel) (exec fuel) fuel (.range counter first bound step body line)) := by
  have hrounds (start stop width : Float) :=
    (@schedules_rangeRounds fuel counter stop width body fuel start).withScope
  refine ((schedules_evalNumber first line).bind fun start =>
    (schedules_evalNumber bound line).bind fun stop =>
      (schedules_evalStep step line).bind fun width => hrounds start stop width).mono ?_
  rintro before task begun (hneeds | henters)
  · cases hneeds with
    | value _ hturn => cases hturn
    | rangeFirst => exact .inl ⟨rfl, rfl⟩
    | rangeBound hfirst => exact .inr ⟨_, _, hfirst, .inl ⟨rfl, rfl⟩⟩
    | rangeStep hfirst hbound =>
        exact .inr ⟨_, _, hfirst, .inr ⟨_, _, hbound, .inl ⟨_, rfl, rfl, rfl⟩⟩⟩
    | rangeRound hfirst hbound hstep hround hin hturn =>
        exact .inr ⟨_, _, hfirst, .inr ⟨_, _, hbound, .inr ⟨_, _, hstep,
          _, _, hround, hin, hturn⟩⟩⟩
  · cases henters

theorem schedules_loop (condition : Expr) (body : List Stmt) (line : Nat) :
    Schedules fuel ((Task.exec (.loop condition body line)).Starts fuel)
      (execWith (eval fuel) (exec fuel) fuel (.loop condition body line)) := by
  refine (schedules_whileRounds condition body fuel).withScope.mono ?_
  rintro before task begun (hneeds | henters)
  · cases hneeds with
    | value _ hturn => cases hturn
    | condition hround => exact ⟨_, hround, .inl ⟨rfl, rfl⟩⟩
    | round hround hcondition htruthy hturn =>
        exact ⟨_, hround, .inr ⟨_, _, hcondition, htruthy, hturn⟩⟩
  · cases henters

theorem schedules_attempt (body : List Stmt) (errorName : String) (handler : List Stmt)
    (line rounds : Nat) :
    Schedules fuel ((Task.exec (.attempt body errorName handler line)).Starts fuel)
      (execWith (eval fuel) (exec fuel) rounds (.attempt body errorName handler line)) := by
  have hhandler (raised : Fault) :
      Schedules fuel
        (fun before => InTurn fuel (handler.map .exec)
          (before.pushed.bound errorName (.text raised.message)))
        (withScope do
          define errorName (.text raised.message)
          execBlock (exec fuel) handler) := by
    have hdefine (store : Store) :
        KeepsStore store.KindsStay (define errorName (.text raised.message)) :=
      (lasting_kindsStay store).nested.keeps_define errorName _ 0
    refine (Schedules.after_quiet hdefine fun _ => schedules_block fuel handler).withScope.mono ?_
    exact fun hturn => ⟨(), _, rfl, hturn⟩
  refine ((schedules_block fuel body).handling hhandler).mono ?_
  rintro before task begun (hneeds | henters)
  · cases hneeds with
    | value _ hturn => cases hturn
    | attempt hturn => exact .inl hturn
    | handler hfault hturn => exact .inr ⟨_, _, hfault, hturn⟩
  · cases henters

theorem schedules_execWith (statement : Stmt) :
    Schedules fuel ((Task.exec statement).Starts fuel)
      (execWith (eval fuel) (exec fuel) fuel statement) := by
  have hplain {statement : Stmt}
      (h : Schedules fuel
        (fun before task begun => statement.Ready before ∧
          InTurn fuel (statement.operands.map .eval) before task begun)
        (execWith (eval fuel) (exec fuel) fuel statement))
      (hblocks : ∀ block ∈ statement.blocks, block.1 = .function) :
      Schedules fuel ((Task.exec statement).Starts fuel)
        (execWith (eval fuel) (exec fuel) fuel statement) := by
    refine h.mono ?_
    rintro before task begun (hneeds | henters)
    · cases hneeds with
      | value hready hturn => exact ⟨hready, hturn⟩
      | _ => simp [Stmt.blocks] at hblocks
    · cases henters
  have hoperands {statement : Stmt}
      (h : Schedules fuel (InTurn fuel (statement.operands.map .eval))
        (execWith (eval fuel) (exec fuel) fuel statement))
      (hblocks : ∀ block ∈ statement.blocks, block.1 = .function) :
      Schedules fuel ((Task.exec statement).Starts fuel)
        (execWith (eval fuel) (exec fuel) fuel statement) :=
    hplain (h.mono And.right) hblocks
  have hnone : ∀ block ∈ ([] : List (Region × List Stmt)), block.1 = .function :=
    List.forall_mem_nil _
  have hsteady (store : Store) := (lasting_kindsStay store).steady
  have hnested (store : Store) := (lasting_kindsStay store).nested
  have hnormal (store : Store) : KeepsStore store.KindsStay (pure .normal : Action Flow) :=
    keepsStore_pure Flow.normal
  cases statement with
  | declare name value line =>
      refine hoperands (schedules_operand value fun written => schedules_last fun store => ?_) hnone
      exact ((hnested store).keeps_define name written 0).bind fun _ _ => hnormal store
  | print value line =>
      refine hoperands (schedules_operand value fun printed => schedules_last fun store => ?_) hnone
      exact ((hsteady store).keeps_print printed).bind fun _ _ => hnormal store
  | assign name value line =>
      refine hoperands (schedules_operand value fun written => schedules_last fun store => ?_) hnone
      exact ((hnested store).keeps_assign name written line 0).bind fun _ _ => hnormal store
  | assignIndex name position value line =>
      exact hplain (schedules_target fun target => schedules_operand position fun index =>
        schedules_operand value fun written => schedules_last fun _ => keepsStore_writing) hnone
  | assignProperty name property value line =>
      exact hplain (schedules_target fun target => schedules_operand value fun written =>
        schedules_last fun _ => keepsStore_writing) hnone
  | branch condition yes no line => exact schedules_branch condition yes no line fuel
  | loop condition body line => exact schedules_loop condition body line
  | range counter first bound step body line =>
      exact schedules_range counter first bound step body line
  | define name parameters body line =>
      refine hoperands (schedules_last fun store => ?_) (List.forall_mem_singleton.mpr rfl)
      exact (keeps_modify fun _ h => h).bind fun _ _ => hnormal store
  | giveBack value line =>
      cases value with
      | none =>
          refine hoperands (schedules_last fun store => ?_) hnone
          exact (keepsStore_pure Value.null).bind fun _ _ => keepsStore_pure _
      | some expr =>
          exact hoperands (schedules_operand expr fun _ => schedules_last fun _ =>
            keepsStore_pure _) hnone
  | leave line => exact hoperands (schedules_last fun _ => keepsStore_pure _) hnone
  | proceed line => exact hoperands (schedules_last fun _ => keepsStore_pure _) hnone
  | attempt body errorName handler line =>
      exact schedules_attempt body errorName handler line fuel
  | expression value line =>
      exact hoperands (schedules_operand value fun _ => schedules_last hnormal) hnone

/-- The tasks that a task executes itself take turns. -/
theorem schedules_action (fuel : Nat) (task : Task) :
    Schedules fuel (task.Starts fuel) (task.action (fuel + 1)) := by
  cases task with
  | eval expr => exact (schedules_evalWith expr).then_quiet fun _ _ => keepsStore_pure Flow.normal
  | exec statement => exact schedules_execWith statement

end Bhasha
