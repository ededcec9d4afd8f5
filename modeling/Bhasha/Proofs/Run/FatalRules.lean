import Bhasha.Proofs.Run.Activation

/-!
# How the fatal end spreads

An action that is put together from smaller ones ends fatally exactly if one of them does in a
state that the action comes to.  Nothing on the way stops it: a scope is not left, a handler is
not asked, and a loop does not go on.
-/

namespace Bhasha

variable {α β : Type}

namespace Action

variable {before after : Context}

theorem bind_eq_ok
    {first : Action α} {next : α → Action β} {result : β} :
    (first >>= next) before = .ok result after ↔
      ∃ value middle, first before = .ok value middle ∧ next value middle = .ok result after := by
  rw [bind_apply]
  cases first before <;> simp [and_assoc]

theorem bind_eq_fault
    {first : Action α} {next : α → Action β} {raised : Fault} :
    (first >>= next) before = .fault raised after ↔
      first before = .fault raised after ∨
        ∃ value middle, first before = .ok value middle ∧ next value middle = .fault raised after := by
  rw [bind_apply]
  cases first before <;> simp [and_assoc]

theorem bind_eq_fatal {first : Action α} {next : α → Action β} :
    (first >>= next) before = .fatal ↔
      first before = .fatal ∨
        ∃ value middle, first before = .ok value middle ∧ next value middle = .fatal := by
  rw [bind_apply]
  cases first before <;> simp [and_assoc]

theorem fatal_of_first
    {first : Action α} {next : α → Action β} (h : first before = .fatal) :
    (first >>= next) before = .fatal :=
  bind_eq_fatal.mpr (.inl h)

theorem fatal_of_next
    {first : Action α} {next : α → Action β} {value : α} {middle : Context}
    (hfirst : first before = .ok value middle) (hnext : next value middle = .fatal) :
    (first >>= next) before = .fatal :=
  bind_eq_fatal.mpr (.inr ⟨value, middle, hfirst, hnext⟩)

theorem withScope_eq_fatal {body : Action α} :
    withScope body before = .fatal ↔ body before.pushed = .fatal := by
  unfold withScope Context.pushed
  cases body { before with scopes := before.scopes.push } <;> simp

theorem withScope_eq_ok {body : Action α} {result : α} :
    withScope body before = .ok result after ↔
      ∃ inner, body before.pushed = .ok result inner ∧
        { inner with scopes := inner.scopes.pop } = after := by
  unfold withScope Context.pushed
  cases body { before with scopes := before.scopes.push } <;> simp

theorem deeper_eq_fatal {body : Action α} :
    deeper body before = .fatal ↔
      body { before with callDepth := before.callDepth + 1 } = .fatal := by
  unfold deeper
  cases body { before with callDepth := before.callDepth + 1 } <;> simp

theorem handling_eq_fatal {body : Action α} {handler : Fault → Action α} :
    handling body handler before = .fatal ↔
      body before = .fatal ∨
        ∃ raised middle, body before = .fault raised middle ∧ handler raised middle = .fatal := by
  unfold handling
  cases body before <;> simp [and_assoc]

theorem handling_eq_ok {body : Action α} {handler : Fault → Action α} {result : α} :
    handling body handler before = .ok result after ↔
      body before = .ok result after ∨
        ∃ raised middle, body before = .fault raised middle ∧
          handler raised middle = .ok result after := by
  unfold handling
  cases body before <;> simp

@[simp] theorem ofExcept_ne_fatal {result : Except Fault α} :
    ofExcept result before ≠ .fatal := by
  unfold ofExcept
  cases result <;> simp

theorem ofExcept_eq_ok {result : Except Fault α} {value : α} :
    ofExcept result before = .ok value after ↔ result = .ok value ∧ before = after := by
  unfold ofExcept
  cases result <;> simp

@[simp] theorem reading_ne_fatal {read : Store → Except Fault α} :
    reading read before ≠ .fatal :=
  ofExcept_ne_fatal

@[simp] theorem map_apply_eq_fatal {change : α → β} {action : Action α} :
    (change <$> action) before = .fatal ↔ action before = .fatal := by
  rw [map_eq_pure_bind, bind_eq_fatal]
  simp

@[simp] theorem modify_ne_fatal {change : Context → Context} : modify change before ≠ .fatal := by
  simp [modify]

@[simp] theorem raise_ne_fatal {cause : FaultCause} {line : Nat} :
    (raise cause line : Action α) before ≠ .fatal := by
  simp [raise]

theorem map_eq_fatal {result : Except Halt α} {change : α → β} :
    result.map change = .error .fatal ↔ result = .error .fatal := by
  cases result <;> simp [Except.map]

theorem writing_eq_fatal {write : Store → Except Halt (α × Effect)} :
    writing write before = .fatal ↔ write before.store = .error .fatal := by
  unfold writing
  cases hwrite : write before.store with
  | ok result => simp
  | error halt => cases halt <;> simp

@[simp] theorem lookup_ne_fatal {name : String} {line : Nat} :
    lookup name line before ≠ .fatal := by
  unfold lookup
  cases before.scopes.get? name <;> simp

theorem lookup_eq_ok {name : String} {line : Nat} {value : Value} :
    lookup name line before = .ok value after ↔
      before.scopes.get? name = some value ∧ before = after := by
  unfold lookup
  cases before.scopes.get? name <;> simp

@[simp] theorem findFunction_ne_fatal {name : String} {line : Nat} :
    findFunction name line before ≠ .fatal := by
  unfold findFunction
  cases before.functions.get? name <;> simp

theorem findFunction_eq_ok {name : String} {line : Nat} {function : Function} :
    findFunction name line before = .ok function after ↔
      before.functions.get? name = some function ∧ before = after := by
  unfold findFunction
  cases before.functions.get? name <;> simp

theorem defineAll_eq_ok (bindings : List (String × Value)) (before : Context) :
    ∃ after, defineAll bindings before = .ok () after := by
  induction bindings generalizing before with
  | nil => exact ⟨before, rfl⟩
  | cons binding rest ih => exact ih (before.bound binding.1 binding.2)

@[simp] theorem assign_ne_fatal {name : String} {value : Value} {line : Nat} :
    assign name value line before ≠ .fatal := by
  unfold assign
  cases before.scopes.assign? name value <;> simp

theorem assign_eq_ok {name : String} {value : Value} {line : Nat} :
    assign name value line before = .ok () after ↔
      ∃ scopes, before.scopes.assign? name value = some scopes ∧
        { before with scopes := scopes } = after := by
  unfold assign
  cases before.scopes.assign? name value <;> simp

end Action

open Action

/-- One of some tasks that are executed in turn ends fatally. -/
def FatalIn (fuel : Nat) (tasks : List Task) (before : Context) : Prop :=
  ∃ task after, InTurn fuel tasks before task after ∧ task.action fuel after = .fatal

section

variable {fuel : Nat} {before : Context}

@[simp] theorem not_fatalIn_nil : ¬FatalIn fuel [] before := by
  rintro ⟨task, after, hturn, -⟩
  cases hturn

theorem fatalIn_cons {task : Task} {rest : List Task} :
    FatalIn fuel (task :: rest) before ↔
      task.action fuel before = .fatal ∨
        ∃ middle, task.action fuel before = .ok .normal middle ∧ FatalIn fuel rest middle := by
  constructor
  · rintro ⟨found, after, hturn, hfatal⟩
    cases hturn with
    | first => exact .inl hfatal
    | later hfirst hturn => exact .inr ⟨_, hfirst, found, after, hturn, hfatal⟩
  · rintro (hfatal | ⟨middle, hfirst, found, after, hturn, hfatal⟩)
    · exact ⟨task, before, .first, hfatal⟩
    · exact ⟨found, after, .later hfirst hturn, hfatal⟩

@[simp] theorem action_eval_eq_fatal {expr : Expr} :
    (Task.eval expr).action fuel before = .fatal ↔ eval fuel expr before = .fatal := by
  unfold Task.action
  rw [bind_eq_fatal]
  simp

theorem action_eval_eq_ok {expr : Expr} {after : Context} :
    (Task.eval expr).action fuel before = .ok .normal after ↔
      ∃ value, eval fuel expr before = .ok value after := by
  unfold Task.action
  rw [bind_eq_ok]
  simp

theorem fatalIn_eval_cons {expr : Expr} {rest : List Task} :
    FatalIn fuel (.eval expr :: rest) before ↔
      eval fuel expr before = .fatal ∨
        ∃ value middle, eval fuel expr before = .ok value middle ∧ FatalIn fuel rest middle := by
  rw [fatalIn_cons, action_eval_eq_fatal]
  constructor
  · rintro (hfatal | ⟨middle, hfirst, hrest⟩)
    · exact .inl hfatal
    · obtain ⟨value, hvalue⟩ := action_eval_eq_ok.mp hfirst
      exact .inr ⟨value, middle, hvalue, hrest⟩
  · rintro (hfatal | ⟨value, middle, hvalue, hrest⟩)
    · exact .inl hfatal
    · exact .inr ⟨middle, action_eval_eq_ok.mpr ⟨value, hvalue⟩, hrest⟩

theorem evalAll_eq_fatal {exprs : List Expr} :
    evalAll (eval fuel) exprs before = .fatal ↔ FatalIn fuel (exprs.map .eval) before := by
  induction exprs generalizing before with
  | nil => simp [evalAll]
  | cons expr rest ih =>
      unfold evalAll
      rw [List.map_cons, fatalIn_eval_cons]
      simp [bind_eq_fatal, ih]

theorem evalEntries_eq_fatal {fields : Table Value} {entries : List (String × Expr)} :
    evalEntries (eval fuel) fields entries before = .fatal ↔
      FatalIn fuel ((entries.map Prod.snd).map .eval) before := by
  induction entries generalizing before fields with
  | nil => simp [evalEntries]
  | cons entry rest ih =>
      unfold evalEntries
      rw [List.map_cons, List.map_cons, fatalIn_eval_cons, bind_eq_fatal]
      simp only [ih]

theorem execBlock_eq_fatal {block : List Stmt} :
    execBlock (exec fuel) block before = .fatal ↔ FatalIn fuel (block.map .exec) before := by
  induction block generalizing before with
  | nil => simp [execBlock]
  | cons statement rest ih =>
      simp only [execBlock, bind_eq_fatal, List.map_cons, fatalIn_cons]
      constructor
      · rintro (hfatal | ⟨flow, middle, hfirst, hrest⟩)
        · exact .inl hfatal
        · cases flow with
          | normal => exact .inr ⟨middle, hfirst, ih.mp hrest⟩
          | _ => cases hrest
      · rintro (hfatal | ⟨middle, hfirst, hrest⟩)
        · exact .inl hfatal
        · exact .inr ⟨.normal, middle, hfirst, ih.mpr hrest⟩

end

theorem whileRounds_eq_fatal
    {condition : Action Value} {body : Action Flow} {rounds : Nat} {before : Context} :
    whileRounds condition body rounds before = .fatal ↔
      ∃ start, WhileRound condition body rounds before start ∧
        (condition start = .fatal ∨ ∃ value middle, condition start = .ok value middle ∧
          value.truthy = true ∧ body middle = .fatal) := by
  constructor
  · intro h
    induction rounds generalizing before with
    | zero => cases h
    | succ rounds ih =>
        unfold whileRounds at h
        cases hvalue : condition before with
        | fatal => exact ⟨before, .first, .inl hvalue⟩
        | fault raised middle =>
            rw [hvalue] at h
            cases h
        | outOfFuel =>
            rw [hvalue] at h
            cases h
        | ok value middle =>
            simp only [hvalue] at h
            by_cases htruthy : value.truthy = true
            · rw [if_pos htruthy] at h
              cases hflow : body middle with
              | fatal => exact ⟨before, .first, .inr ⟨value, middle, hvalue, htruthy, hflow⟩⟩
              | fault raised after => simp [hflow] at h
              | outOfFuel => simp [hflow] at h
              | ok flow after =>
                  simp only [hflow] at h
                  cases hround : flow.afterRound with
                  | some flow => simp [hround] at h
                  | none =>
                      rw [hround] at h
                      obtain ⟨start, hstart, hend⟩ := ih h
                      exact ⟨start, .next hvalue htruthy hflow hround hstart, hend⟩
            · rw [if_neg htruthy] at h
              cases h
  · rintro ⟨start, hstart, hend⟩
    induction hstart with
    | first =>
        unfold whileRounds
        rcases hend with hfatal | ⟨value, middle, hvalue, htruthy, hbody⟩
        · rw [hfatal]
        · simp [hvalue, htruthy, hbody]
    | next hvalue htruthy hflow hround _ ih =>
        unfold whileRounds
        simp [hvalue, htruthy, hflow, hround, ih hend]

theorem rangeRounds_eq_fatal
    {name : String} {bound step : Float} {body : Action Flow} {rounds : Nat} {counter : Float}
    {before : Context} :
    rangeRounds name bound step body rounds counter before = .fatal ↔
      ∃ count start, RangeRound name bound step body rounds counter before count start ∧
        inRange bound step count = true ∧ body (start.bound name (.number count)) = .fatal := by
  constructor
  · intro h
    induction rounds generalizing before counter with
    | zero => cases h
    | succ rounds ih =>
        unfold rangeRounds at h
        by_cases hrange : inRange bound step counter = true
        · rw [if_pos hrange] at h
          cases hflow : (do define name (.number counter); body : Action Flow) before with
          | fatal => exact ⟨counter, before, .first, hrange, hflow⟩
          | fault raised after => simp [hflow] at h
          | outOfFuel => simp [hflow] at h
          | ok flow after =>
              simp only [hflow] at h
              cases hround : flow.afterRound with
              | some flow => simp [hround] at h
              | none =>
                  rw [hround] at h
                  obtain ⟨count, start, hstart, hend⟩ := ih h
                  exact ⟨count, start, .next hrange hflow hround hstart, hend⟩
        · rw [if_neg hrange] at h
          cases h
  · rintro ⟨count, start, hstart, hcount, hend⟩
    induction hstart with
    | @first rounds counter before =>
        have hfatal : (do define name (.number counter); body : Action Flow) before = .fatal := hend
        unfold rangeRounds
        simp [hcount, hfatal]
    | next hrange hflow hround _ ih =>
        unfold rangeRounds
        simp [hrange, hflow, hround, ih hcount hend]

end Bhasha
