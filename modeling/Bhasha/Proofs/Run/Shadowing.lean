import Bhasha.Proofs.Run.Addresses

/-!
# Functions named like built-in ones

A call looks for a built-in function first, so a function of the program that is named like one is
never found.  Its definition may stand anywhere in the program, also in the bodies of functions
that are called: without all such definitions the program does the same.
-/

namespace Bhasha

variable {hidden : String → Bool}

theorem Value.rename_id (value : Value) : value.rename id = value := by
  cases value <;> rfl

theorem Container.rename_id (container : Container) : container.rename id = container := by
  cases container with
  | list items => simp [rename, Value.rename_id]
  | record fields => rw [rename, Table.map_eq_self Value.rename_id]

theorem Scopes.rename_id (scopes : Scopes) : scopes.rename id = scopes := by
  simp [rename, Table.map_eq_self Value.rename_id]

theorem Store.renamedTo_self {store : Store} (h : store.Closed (· < store.size)) :
    store.RenamedTo id store where
  injective := Function.injective_id
  get? address := by simp [Container.rename_id]
  next _ := rfl
  closed := h

/-- The state without the functions that have hidden names, and without the definitions of hidden
names in the bodies of the others. -/
def Context.without (hidden : String → Bool) (context : Context) : Context :=
  { context with functions := (context.functions.without hidden).map (·.without hidden) }

theorem Context.Sound.corresponds_without {context : Context} (h : context.Sound)
    (hidden : String → Bool) : context.Corresponds id hidden (context.without hidden) where
  store := Store.renamedTo_self h.store
  scopes := (Scopes.rename_id _).symm
  bound := h.scopes
  functions := rfl
  output := by simp [Context.without, Value.rename_id]
  printed := h.output
  callDepth := rfl
  config := rfl
  random := rfl

/-- Where all addresses are their own images, nothing but the functions is different. -/
theorem Context.Corresponds.eq_without {left right : Context}
    (h : left.Corresponds id hidden right) : right = left.without hidden := by
  have hstore : right.store = left.store := by
    have hcontainers : right.store.containers = left.store.containers := by
      apply Array.ext_getElem?
      intro address
      have hsame : right.store.get? address = left.store.get? address := by
        simpa [Container.rename_id] using h.store.get? address
      exact hsame
    exact congrArg Store.mk hcontainers
  have houtput : right.output = left.output := by
    rw [h.output]
    simp [Value.rename_id]
  have hscopes : right.scopes = left.scopes := by
    rw [h.scopes, Scopes.rename_id]
  obtain ⟨store, scopes, functions, output, callDepth, config, random⟩ := right
  cases hstore
  cases hscopes
  cases houtput
  cases h.functions
  cases h.callDepth
  cases h.config
  cases h.random
  rfl

namespace Outcome.Tracks

variable {α : Type} {size : Nat} {change : α → α} {holds : (Address → Prop) → α → Prop}
  {first second : Outcome α} {after : Context}

theorem of_ok (h : Tracks id hidden size change holds first second) {value : α}
    (hfirst : first = .ok value after) : second = .ok (change value) (after.without hidden) := by
  subst hfirst
  cases h with
  | ok hend _ _ => rw [hend.eq_without]

theorem of_fault (h : Tracks id hidden size change holds first second) {raised : Fault}
    (hfirst : first = .fault raised after) : second = .fault raised (after.without hidden) := by
  subst hfirst
  cases h with
  | fault hend _ => rw [hend.eq_without]

theorem of_fatal (h : Tracks id hidden size change holds first second)
    (hfirst : first = .fatal) : second = .fatal := by
  subst hfirst
  cases h with
  | fatal => rfl

end Outcome.Tracks

namespace Builtin

/-- Whether a function of this name would never be found. -/
def shadows (name : String) : Bool :=
  (ofName? name).isSome

end Builtin

/-- The program without the definitions of functions that are named like built-in ones. -/
def Program.withoutShadowed (program : Program) : Program :=
  Stmt.withoutBlock Builtin.shadows program

/-- In a state in which all addresses are those of containers, a program that ends within its fuel
does the same without the definitions of shadowed functions. -/
theorem Program.tracks_withoutShadowed (program : Program) (fuel : Nat) {context : Context}
    (h : context.Sound) :
    (program.evaluate fuel context).Tracks id Builtin.shadows context.store.size
      (·.map (·.rename id)) (fun inside output => ∀ value ∈ output, value.Within inside)
      (program.withoutShadowed.evaluate fuel (context.without Builtin.shadows)) :=
  tracks_evaluate (fun _ => id) program fuel _ _ (h.corresponds_without _) (Nat.le_refl _)

/-- A program cannot replace built-in functions.  However it ends within its fuel, it ends so as
well without the definitions of functions that are named like them: with the same output, or with
the same fault, and in a state with the same containers, variables and pending output. -/
theorem run_without_shadowed (program : Program) (fuel : Nat) (config : Config)
    (random : RandomSource) :
    let start : Context := { config := config, random := random }
    (∀ output after, program.evaluate fuel start = .ok output after →
      program.withoutShadowed.evaluate fuel start =
        .ok output (after.without Builtin.shadows)) ∧
    (∀ raised after, program.evaluate fuel start = .fault raised after →
      program.withoutShadowed.evaluate fuel start =
        .fault raised (after.without Builtin.shadows)) ∧
    (program.evaluate fuel start = .fatal →
      program.withoutShadowed.evaluate fuel start = .fatal) := by
  intro start
  have hstart : start.without Builtin.shadows = start := rfl
  have hends := program.tracks_withoutShadowed fuel (Context.sound_initial config random)
  rw [hstart] at hends
  refine ⟨fun output after hok => ?_, fun raised after => hends.of_fault, hends.of_fatal⟩
  have hkept := hends.of_ok hok
  rwa [Array.map_congr_left fun value _ => value.rename_id, Array.map_id'] at hkept

end Bhasha
