import Bhasha.Proofs.Program.Places
import Bhasha.Proofs.Run.Frames
import Bhasha.Proofs.Run.Invariant
import Bhasha.Proofs.Table.Insertion

/-!
# Scopes are left as they were entered

However an expression or a statement ends, every scope that it entered has been left, and the
scopes around the innermost one bind the names that they bound before.  The innermost one may
bind more names, but only those that are declared at places of the statement which do not enter
a scope of their own.
-/

namespace Bhasha

namespace Table

variable {α : Type}

theorem contains_iff (table : Table α) (name : String) :
    table.contains name = true ↔ name ∈ table.names := by
  rw [← not_iff_not, ← get?_eq_none_iff]
  simp [contains]

theorem names_insert_of_contains
    {table : Table α} {name : String} (h : table.contains name = true) (thing : α) :
    (table.insert name thing).names = table.names := by
  rw [names_insert, if_pos ((table.contains_iff name).mp h)]

end Table

namespace Scopes

def names (scopes : Scopes) : List (List String) :=
  scopes.frames.map Table.names

theorem length_names (scopes : Scopes) : scopes.names.length = scopes.frames.length :=
  List.length_map _

theorem names_ne_nil (scopes : Scopes) : scopes.names ≠ [] := by
  simp [names, scopes.frames_ne_nil]

theorem names_push (scopes : Scopes) : scopes.push.names = [] :: scopes.names :=
  rfl

theorem names_pop
    {scopes : Scopes} {innermost : List String} {outer : List (List String)}
    (h : scopes.names = innermost :: outer) (houter : outer ≠ []) :
    scopes.pop.names = outer := by
  obtain ⟨frame, rest, hframes, -, rfl⟩ := List.map_eq_cons_iff.mp h
  have hrest : rest ≠ [] := fun hnil => houter (congrArg (List.map Table.names) hnil)
  rw [names, frames_pop hframes hrest]

theorem names_define
    {scopes : Scopes} {innermost : List String} {outer : List (List String)}
    (h : scopes.names = innermost :: outer) (name : String) (value : Value) :
    (scopes.define name value).names =
      (if name ∈ innermost then innermost else innermost ++ [name]) :: outer := by
  obtain ⟨frame, rest, hframes, rfl, rfl⟩ := List.map_eq_cons_iff.mp h
  rw [names, frames_define hframes, List.map_cons, Table.names_insert]

theorem names_assignIn
    {name : String} {value : Value} {frames written : List Frame}
    (h : assignIn name value frames = some written) :
    written.map Table.names = frames.map Table.names := by
  induction frames generalizing written with
  | nil => cases h
  | cons frame rest ih =>
      unfold assignIn at h
      by_cases hcontains : frame.contains name = true
      · rw [if_pos hcontains] at h
        cases h
        rw [List.map_cons, List.map_cons, Table.names_insert_of_contains hcontains]
      · rw [if_neg hcontains] at h
        obtain ⟨others, hothers, rfl⟩ := Option.map_eq_some_iff.mp h
        rw [List.map_cons, List.map_cons, ih hothers]

theorem names_assign?
    {scopes written : Scopes} {name : String} {value : Value}
    (h : scopes.assign? name value = some written) : written.names = scopes.names := by
  have hframes : assignIn name value scopes.frames = some written.frames := by
    rw [← map_frames_assign?, h]
    rfl
  exact names_assignIn hframes

end Scopes

/-- A name is declared in a block, at a place that shares the scope of the block. -/
def DeclaredIn (block : List Stmt) (name : String) : Prop :=
  ∃ value line,
    Occurs (fun region => region = .branch ∨ region = .attempt) (.declare name value line) block

/-- From one state to a later one, no scope has been entered or left for good, the call depth and
the configuration are the same, and of all scopes only the innermost one may bind further names,
which are among the given ones. -/
structure Grows (declared : String → Prop) (before after : Context) : Prop where
  height : after.scopes.frames.length = before.scopes.frames.length
  names : ∃ innermost added outer, before.scopes.names = innermost :: outer ∧
    after.scopes.names = (innermost ++ added) :: outer ∧ ∀ name ∈ added, declared name
  callDepth : after.callDepth = before.callDepth
  config : after.config = before.config

def Nothing (_ : String) : Prop :=
  False

section

variable {declared wider : String → Prop} {before middle after : Context}

theorem grows_of_names
    {innermost added : List String} {outer : List (List String)}
    (hbefore : before.scopes.names = innermost :: outer)
    (hafter : after.scopes.names = (innermost ++ added) :: outer)
    (hadded : ∀ name ∈ added, declared name) (hcallDepth : after.callDepth = before.callDepth)
    (hconfig : after.config = before.config) : Grows declared before after := by
  refine ⟨?_, ⟨innermost, added, outer, hbefore, hafter, hadded⟩, hcallDepth, hconfig⟩
  rw [← Scopes.length_names, ← Scopes.length_names, hbefore, hafter]
  rfl

theorem grows_of_same_names
    (hnames : after.scopes.names = before.scopes.names)
    (hcallDepth : after.callDepth = before.callDepth) (hconfig : after.config = before.config) :
    Grows declared before after := by
  obtain ⟨innermost, outer, hbefore⟩ := List.exists_cons_of_ne_nil before.scopes.names_ne_nil
  rw [hbefore] at hnames
  exact grows_of_names hbefore (by rw [hnames, List.append_nil]) (by simp) hcallDepth hconfig

theorem Grows.refl (declared : String → Prop) (context : Context) :
    Grows declared context context :=
  grows_of_same_names rfl rfl rfl

theorem Grows.mono
    (h : Grows declared before after) (hwider : ∀ name, declared name → wider name) :
    Grows wider before after := by
  obtain ⟨innermost, added, outer, hbefore, hafter, hadded⟩ := h.names
  exact ⟨h.height, ⟨innermost, added, outer, hbefore, hafter, fun name hname =>
    hwider name (hadded name hname)⟩, h.callDepth, h.config⟩

theorem Grows.trans
    (hfirst : Grows declared before middle) (hsecond : Grows declared middle after) :
    Grows declared before after := by
  obtain ⟨innermost, added, outer, hbefore, hmiddle, hadded⟩ := hfirst.names
  obtain ⟨innermost', added', outer', hmiddle', hafter, hadded'⟩ := hsecond.names
  rw [hmiddle] at hmiddle'
  obtain ⟨rfl, rfl⟩ := List.cons.inj hmiddle'
  rw [List.append_assoc] at hafter
  refine grows_of_names hbefore hafter ?_ (hsecond.callDepth.trans hfirst.callDepth)
    (hsecond.config.trans hfirst.config)
  intro name hname
  rcases List.mem_append.mp hname with hname | hname
  · exact hadded name hname
  · exact hadded' name hname

theorem Grows.names_eq (h : Grows Nothing before after) :
    after.scopes.names = before.scopes.names := by
  obtain ⟨innermost, added, outer, hbefore, hafter, hadded⟩ := h.names
  cases added with
  | nil => rw [hbefore, hafter, List.append_nil]
  | cons name rest => exact (hadded name (by simp)).elim

theorem grows_define
    {name : String} (hname : declared name) (value : Value) (context : Context) :
    Grows declared context { context with scopes := context.scopes.define name value } := by
  obtain ⟨innermost, outer, hbefore⟩ := List.exists_cons_of_ne_nil context.scopes.names_ne_nil
  have hafter := Scopes.names_define hbefore name value
  by_cases hmem : name ∈ innermost
  · rw [if_pos hmem] at hafter
    exact grows_of_same_names (hafter.trans hbefore.symm) rfl rfl
  · rw [if_neg hmem] at hafter
    exact grows_of_names hbefore hafter (by simpa using hname) rfl rfl

/-- Whatever is declared in a scope is gone when it is left. -/
theorem Grows.pop
    (h : Grows declared { before with scopes := before.scopes.push } after) :
    Grows Nothing before { after with scopes := after.scopes.pop } := by
  obtain ⟨innermost, added, outer, hbefore, hafter, -⟩ := h.names
  rw [Scopes.names_push] at hbefore
  obtain ⟨rfl, rfl⟩ := List.cons.inj hbefore
  have hpop := Scopes.names_pop hafter before.scopes.names_ne_nil
  exact grows_of_same_names hpop h.callDepth h.config

theorem Grows.shallower
    (h : Grows declared { before with callDepth := before.callDepth + 1 } after) :
    Grows declared before { after with callDepth := after.callDepth - 1 } := by
  refine ⟨h.height, h.names, ?_, h.config⟩
  rw [h.callDepth]
  rfl

end

/-- However an action ends, at most the given names have been declared since its beginning. -/
def Action.Declares {α : Type} (declared : String → Prop) (action : Action α) : Prop :=
  ∀ context, (action context).Ends (fun _ after => Grows declared context after)
    (fun _ after => Grows declared context after)

namespace Action

open Outcome

variable {α : Type} {declared : String → Prop} {action : Action α}

theorem Declares.mono {wider : String → Prop} (h : Declares declared action)
    (hwider : ∀ name, declared name → wider name) : Declares wider action := by
  intro context
  exact (h context).mono (fun _ _ h => h.mono hwider) (fun _ _ h => h.mono hwider)

/-- What has been declared since some earlier state is an invariant. -/
theorem Declares.keeps (h : Declares declared action) (start : Context) :
    Keeps (Grows declared start) (fun _ => True) (fun _ => True) action := by
  intro context hcontext
  exact (h context).mono (fun _ _ h => ⟨hcontext.trans h, trivial⟩)
    (fun _ _ h => ⟨hcontext.trans h, trivial⟩)

theorem Declares.keeps_of_nothing (h : Declares Nothing action) (start : Context) :
    Keeps (Grows declared start) (fun _ => True) (fun _ => True) action :=
  (h.mono fun _ hname => hname.elim).keeps start

theorem declares_of_keeps
    (h : ∀ start, Keeps (Grows declared start) (fun _ => True) (fun _ => True) action) :
    Declares declared action := by
  intro context
  exact (h context context (.refl declared context)).mono (fun _ _ h => h.1) (fun _ _ h => h.1)

theorem Declares.withScope (h : Declares declared action) : Declares Nothing (withScope action) := by
  intro context
  apply ends_withScope
  exact (h _).mono (fun _ _ h => h.pop) (fun _ _ h => h.pop)

theorem Declares.deeper (h : Declares declared action) : Declares declared (deeper action) := by
  intro context
  apply ends_deeper
  exact (h _).mono (fun _ _ h => h.shallower) (fun _ _ h => h.shallower)

variable {start : Context}

theorem keeps_define {name : String} (hname : declared name) (value : Value) :
    Keeps (Grows declared start) (fun _ => True) (fun _ => True) (define name value) :=
  keeps_modify fun context hcontext => hcontext.trans (grows_define hname value context)

theorem keeps_assign (name : String) (value : Value) (line : Nat) :
    Keeps (Grows declared start) (fun _ => True) (fun _ => True) (assign name value line) := by
  intro context hcontext
  unfold assign
  cases hassign : context.scopes.assign? name value with
  | some scopes =>
      have hnames := Scopes.names_assign? hassign
      exact ⟨hcontext.trans (grows_of_same_names hnames rfl rfl), trivial⟩
  | none => exact ⟨hcontext, trivial⟩

end Action

open Action

theorem stable_grows (declared : String → Prop) (start : Context) :
    Stable (Grows declared start) (fun _ => True) := by
  constructor
  · intro context store hcontext
    exact hcontext.trans (grows_of_same_names rfl rfl rfl)
  · intro context output hcontext
    exact hcontext.trans (grows_of_same_names rfl rfl rfl)
  · intro context random hcontext
    exact hcontext.trans (grows_of_same_names rfl rfl rfl)
  · intros
    trivial

section

variable {eval : Evaluator} {exec : Executor}
  (hexec : ∀ statement, Declares (DeclaredIn [statement]) (exec statement))

include hexec

theorem declares_execBlock (block : List Stmt) :
    Declares (DeclaredIn block) (execBlock exec block) := by
  apply declares_of_keeps
  intro start
  refine keeps_execBlock block (fun statement hstatement => ?_) trivial
  have hdeclares : Declares (DeclaredIn block) (exec statement) := by
    apply (hexec statement).mono
    rintro name ⟨value, line, hoccurs⟩
    exact ⟨value, line, hoccurs.of_mem hstatement⟩
  exact hdeclares.keeps start

theorem declares_execBlock_any (block : List Stmt) :
    Declares (fun _ => True) (execBlock exec block) :=
  (declares_execBlock hexec block).mono fun _ _ => trivial

omit hexec in
theorem declares_defineAll (bindings : List (String × Value)) :
    Declares (fun _ => True) (defineAll bindings) := by
  apply declares_of_keeps
  intro start
  induction bindings with
  | nil => exact keeps_pure trivial
  | cons binding rest ih => exact (keeps_define trivial binding.2).bind fun _ _ => ih

theorem declares_callFunction (function : Function) (arguments : List Value) (line : Nat) :
    Declares Nothing (callFunction exec function arguments line) := by
  have hbody : Declares (fun _ => True) (do
      defineAll (function.parameters.zip arguments)
      execBlock exec function.body) := by
    apply declares_of_keeps
    intro start
    refine ((declares_defineAll _).keeps start).bind fun _ _ => ?_
    exact (declares_execBlock_any hexec function.body).keeps start
  have hrun : Declares Nothing (runBody exec function arguments) := by
    apply declares_of_keeps
    intro start
    refine (hbody.withScope.deeper.keeps start).bind fun flow _ => ?_
    cases flow with
    | normal => exact keeps_pure trivial
    | returned value line => exact keeps_pure trivial
    | broke line => exact keeps_raise trivial
    | continued line => exact keeps_raise trivial
  intro context
  unfold callFunction
  simp only
  split
  · exact .refl _ _
  split
  · exact .refl _ _
  · exact hrun context

variable (heval : ∀ expr, Declares Nothing (eval expr))

include heval

theorem declares_evalWith (expr : Expr) : Declares Nothing (evalWith eval exec expr) := by
  apply declares_of_keeps
  intro start
  exact (stable_grows Nothing start).steady.keeps_evalWith (fun expr => (heval expr).keeps start)
    (fun _ _ _ _ _ => trivial)
    (fun function arguments line _ =>
      (declares_callFunction hexec function arguments line).keeps start) expr

omit hexec heval in
theorem declaredIn_of_block
    {inner : List Stmt} {statement : Stmt} {region : Region} {name : String}
    (h : DeclaredIn inner name) (hblock : (region, inner) ∈ statement.blocks)
    (hregion : region = .branch ∨ region = .attempt) : DeclaredIn [statement] name := by
  obtain ⟨value, line, hoccurs⟩ := h
  exact ⟨value, line, hoccurs.of_block hblock hregion⟩

theorem declares_looping (condition : Expr) (body : List Stmt) (rounds : Nat) :
    Declares Nothing
      (withScope (whileRounds (eval condition) (execBlock exec body) rounds)) := by
  have hrounds : Declares (DeclaredIn body)
      (whileRounds (eval condition) (execBlock exec body) rounds) := by
    apply declares_of_keeps
    intro start
    exact keeps_whileRounds ((heval condition).keeps_of_nothing start)
      ((declares_execBlock hexec body).keeps start) trivial (fun _ _ _ _ => trivial) rounds
  exact hrounds.withScope

omit heval in
theorem declares_ranging
    (counter : String) (bound step : Float) (body : List Stmt) (rounds : Nat) (first : Float) :
    Declares Nothing
      (withScope (rangeRounds counter bound step (execBlock exec body) rounds first)) := by
  have hrounds : Declares (fun _ => True)
      (rangeRounds counter bound step (execBlock exec body) rounds first) := by
    apply declares_of_keeps
    intro start
    exact keeps_rangeRounds (fun count => keeps_define trivial (.number count))
      ((declares_execBlock_any hexec body).keeps start) trivial (fun _ _ _ _ => trivial) rounds
      first
  exact hrounds.withScope

omit heval in
theorem declares_handler (errorName : String) (handler : List Stmt) (raised : Fault) :
    Declares Nothing (withScope do
      Action.define errorName (.text raised.message)
      execBlock exec handler) := by
  have hhandler : Declares (fun _ => True) (do
      Action.define errorName (.text raised.message)
      execBlock exec handler) := by
    apply declares_of_keeps
    intro start
    refine (keeps_define trivial _).bind fun _ _ => ?_
    exact (declares_execBlock_any hexec handler).keeps start
  exact hhandler.withScope

theorem declares_execWith (rounds : Nat) (statement : Stmt) :
    Declares (DeclaredIn [statement]) (execWith eval exec rounds statement) := by
  apply declares_of_keeps
  intro start
  have hsteady := (stable_grows (DeclaredIn [statement]) start).steady
  have hvalue : ∀ expr, Keeps (Grows (DeclaredIn [statement]) start) (fun _ => True)
      (fun _ => True) (eval expr) :=
    fun expr => (heval expr).keeps_of_nothing start
  have hblock : ∀ region inner, (region, inner) ∈ statement.blocks →
      region = .branch ∨ region = .attempt →
      Keeps (Grows (DeclaredIn [statement]) start) (fun _ => True) (fun _ => True)
        (execBlock exec inner) := by
    intro region inner hinner hregion
    have hdeclares := (declares_execBlock hexec inner).mono fun name hname =>
      declaredIn_of_block hname hinner hregion
    exact hdeclares.keeps start
  cases statement with
  | declare name value line =>
      have hname : DeclaredIn [.declare name value line] name :=
        ⟨value, line, .here (List.mem_singleton_self _)⟩
      refine (hvalue value).bind fun written _ => ?_
      exact (keeps_define hname written).bind fun _ _ => keeps_pure trivial
  | print value line =>
      refine (hvalue value).bind fun printed _ => ?_
      exact (hsteady.keeps_print printed).bind fun _ _ => keeps_pure trivial
  | assign name value line =>
      refine (hvalue value).bind fun written _ => ?_
      exact (keeps_assign name written line).bind fun _ _ => keeps_pure trivial
  | assignIndex name position value line =>
      refine (hsteady.keeps_lookup name line).bind fun target _ => ?_
      refine (hvalue position).bind fun index _ => (hvalue value).bind fun written _ => ?_
      exact hsteady.keeps_writingStatement
        (fun store => target.haltsAt_writeIndex store index written) trivial
  | assignProperty name property value line =>
      refine (hsteady.keeps_lookup name line).bind fun target _ => ?_
      refine (hvalue value).bind fun written _ => ?_
      exact hsteady.keeps_writingStatement
        (fun _ => target.haltsAt_writeProperty property written) trivial
  | branch condition yes no line =>
      refine (hvalue condition).bind fun value _ => ?_
      by_cases htruthy : value.truthy = true
      · rw [if_pos htruthy]
        exact hblock .branch yes (by simp [Stmt.blocks]) (.inl rfl)
      · rw [if_neg htruthy]
        exact hblock .branch (no.getD []) (by simp [Stmt.blocks]) (.inl rfl)
  | loop condition body line =>
      exact (declares_looping hexec heval condition body rounds).keeps_of_nothing start
  | range counter first bound step body line =>
      refine (keeps_evalNumber hvalue hsteady.faults first line).bind fun start' _ => ?_
      refine (keeps_evalNumber hvalue hsteady.faults bound line).bind fun stop _ => ?_
      refine (keeps_evalStep hvalue hsteady.faults step line).bind fun width _ => ?_
      exact (declares_ranging hexec counter stop width body rounds start').keeps_of_nothing start
  | define name parameters body line =>
      refine Keeps.bind (keeps_modify ?_) fun _ _ => keeps_pure trivial
      exact fun context hcontext => hcontext.trans (grows_of_same_names rfl rfl rfl)
  | giveBack value line =>
      exact (keeps_evalReturned hvalue value).bind fun returned _ => keeps_pure trivial
  | leave line => exact keeps_pure trivial
  | proceed line => exact keeps_pure trivial
  | attempt body errorName handler line =>
      refine (hblock .attempt body (by simp [Stmt.blocks]) (.inr rfl)).handling fun raised => ?_
      exact (declares_handler hexec errorName handler raised).keeps_of_nothing start
  | expression value line =>
      exact (hvalue value).bind fun _ _ => keeps_pure trivial

end

theorem declares_eval_exec (fuel : Nat) :
    (∀ expr, Declares Nothing (eval fuel expr)) ∧
      ∀ statement, Declares (DeclaredIn [statement]) (exec fuel statement) := by
  induction fuel with
  | zero => exact ⟨fun _ _ => trivial, fun _ _ => trivial⟩
  | succ fuel ih =>
      obtain ⟨heval, hexec⟩ := ih
      exact ⟨declares_evalWith hexec heval, declares_execWith hexec heval fuel⟩

def SameNames (before after : Context) : Prop :=
  after.scopes.names = before.scopes.names ∧ after.callDepth = before.callDepth ∧
    after.config = before.config

/-- However a statement ends, the scopes are those that were there before it, and only the
innermost one may bind further names, which the statement declares in it.  However an expression
ends, every scope binds the names that it bound before. -/
theorem scopes_of_run
    (fuel : Nat) (context : Context) :
    (∀ statement,
      (exec fuel statement context).Ends
        (fun _ after => Grows (DeclaredIn [statement]) context after)
        (fun _ after => Grows (DeclaredIn [statement]) context after)) ∧
    ∀ expr,
      (eval fuel expr context).Ends
        (fun _ after => SameNames context after)
        (fun _ after => SameNames context after) := by
  obtain ⟨heval, hexec⟩ := declares_eval_exec fuel
  have hsame : ∀ after, Grows Nothing context after → SameNames context after :=
    fun after h => ⟨h.names_eq, h.callDepth, h.config⟩
  constructor
  · intro statement
    exact hexec statement context
  · intro expr
    exact (heval expr context).mono (fun _ after h => hsame after h) (fun _ after h => hsame after h)

end Bhasha
