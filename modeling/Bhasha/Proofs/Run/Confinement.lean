import Bhasha.Proofs.Run.Confined

/-!
# What a run can change

A statement can only come to a container from the values that are bound in the scopes, or by making
it.  What is reached from the scopes, with the addresses that are not taken yet, is a closed part of
the store at the beginning.  So a container outside does not change, and the scopes do not come to
it, neither now nor later, although it may be among the printed values.
-/

namespace Bhasha

open Action

/-- A value that is bound in some scope reaches the container. -/
def Context.Holds (context : Context) (address : Address) : Prop :=
  ∃ frame ∈ context.scopes.frames, ∃ name value,
    frame.get? name = some value ∧ context.store.Reaches address value

/-- Whatever is reached from the scopes, and whatever has still to be made. -/
def Context.Available (context : Context) (address : Address) : Prop :=
  context.Holds address ∨ context.store.size ≤ address

/-- From one state to a later one, the containers that the earlier scopes do not reach have kept
their contents, and the later scopes reach only what the earlier ones did and what has been made
in between. -/
structure Confines (before after : Context) : Prop where
  unchanged : ∀ address < before.store.size, ¬before.Holds address →
    after.store.get? address = before.store.get? address
  held : ∀ address, after.Holds address → before.Available address
  size : before.store.size ≤ after.store.size

/-- The states that executing statements leads to, however they end.  The output may be handed over
in between. -/
inductive LeadsOn : Context → Context → Prop where
  | here {context : Context} : LeadsOn context context
  | ok {before middle after : Context} {fuel : Nat} {statement : Stmt} {flow : Flow} :
      exec fuel statement before = .ok flow middle → LeadsOn middle after → LeadsOn before after
  | fault {before middle after : Context} {fuel : Nat} {statement : Stmt} {raised : Fault} :
      exec fuel statement before = .fault raised middle → LeadsOn middle after →
      LeadsOn before after
  | handOver {before after : Context} :
      LeadsOn { before with output := #[] } after → LeadsOn before after

theorem Store.Reaches.item {store : Store} {address target : Address} {value item : Value}
    (h : store.Reaches address value) (hitem : item ∈ store.contents address)
    (htarget : item.address? = some target) : store.Reaches target value := by
  induction h with
  | here haddress => exact .inside haddress hitem (.here htarget)
  | inside haddress hother _ ih => exact .inside haddress hother ih

theorem Context.closed_available (context : Context) :
    context.store.Closed context.Available := by
  intro address havailable item hitem target htarget
  rcases havailable with hholds | hfree
  · obtain ⟨frame, hframe, name, value, hvalue, hreaches⟩ := hholds
    exact .inl ⟨frame, hframe, name, value, hvalue, hreaches.item hitem htarget⟩
  · exact absurd (Store.address_lt_size hitem) (Nat.not_lt.mpr hfree)

theorem Context.confined_available (context : Context) :
    Confined context.Available context.store context where
  bound frame hframe name value hvalue _ haddress :=
    .inl ⟨frame, hframe, name, value, hvalue, .here haddress⟩
  closed := context.closed_available
  outside _ _ := rfl
  free _ haddress := .inr haddress
  size := Nat.le_refl _

theorem Confined.confines {before after : Context}
    (h : Confined before.Available before.store after) : Confines before after where
  unchanged address hlt hholds := by
    apply h.outside
    rintro (hheld | hfree)
    · exact hholds hheld
    · exact Nat.not_lt.mpr hfree hlt
  held address hholds := by
    obtain ⟨frame, hframe, name, value, hvalue, hreaches⟩ := hholds
    exact h.closed.of_reaches hreaches (h.bound frame hframe name value hvalue)
  size := h.size

theorem Confines.refl (context : Context) : Confines context context where
  unchanged _ _ _ := rfl
  held _ hholds := .inl hholds
  size := Nat.le_refl _

theorem Confines.not_holds {before after : Context} (h : Confines before after) {address : Address}
    (hlt : address < before.store.size) (hholds : ¬before.Holds address) :
    ¬after.Holds address := by
  intro hlater
  rcases h.held address hlater with hbefore | hfree
  · exact hholds hbefore
  · exact Nat.not_lt.mpr hfree hlt

theorem Confines.trans {before middle after : Context} (hfirst : Confines before middle)
    (hsecond : Confines middle after) : Confines before after where
  unchanged address hlt hholds := by
    have hmiddle := hfirst.not_holds hlt hholds
    have hsize := hfirst.size
    calc after.store.get? address
        = middle.store.get? address := hsecond.unchanged address (by omega) hmiddle
      _ = before.store.get? address := hfirst.unchanged address hlt hholds
  held address hholds := by
    have hsize := hfirst.size
    rcases hsecond.held address hholds with hmiddle | hfree
    · exact hfirst.held address hmiddle
    · exact .inr (by omega)
  size := Nat.le_trans hfirst.size hsecond.size

/-- What one statement keeps. -/
theorem confines_exec (fuel : Nat) (statement : Stmt) (start : Context) :
    (exec fuel statement start).Ends
      (fun flow after => Confines start after ∧
        ∀ value line, flow = .returned value line →
          ∀ address, after.store.Reaches address value → start.Available address)
      (fun _ after => Confines start after) := by
  have hstays := (stays_eval_exec fuel).2 statement start start.confined_available
  apply hstays.mono
  · rintro flow after ⟨hafter, hflow⟩
    refine ⟨hafter.confines, ?_⟩
    intro value line hreturned address hreaches
    exact hafter.closed.of_reaches hreaches (hflow value line hreturned)
  · exact fun _ _ hafter => hafter.1.confines

/-- What any run of statements keeps. -/
theorem LeadsOn.confines {before after : Context} (h : LeadsOn before after) :
    Confines before after := by
  induction h with
  | here => exact .refl _
  | @ok before middle _ fuel statement flow hexec _ ih =>
      have hfirst := confines_exec fuel statement before
      rw [hexec] at hfirst
      exact hfirst.1.trans ih
  | @fault before middle _ fuel statement raised hexec _ ih =>
      have hfirst := confines_exec fuel statement before
      rw [hexec] at hfirst
      exact Confines.trans hfirst ih
  | handOver _ ih => exact ⟨ih.unchanged, ih.held, ih.size⟩

/-- A statement changes only what the scopes reach.  However it ends, all other containers have the
contents that they had, and what the scopes or a returned value reach was reached before or has
been made by the statement.  A container that only the printed values reach keeps its contents in
all states to come. -/
theorem change_within_reach (fuel : Nat) (statement : Stmt) (start : Context) :
    (exec fuel statement start).Ends
      (fun flow after => Confines start after ∧
        ∀ value line, flow = .returned value line →
          ∀ address, after.store.Reaches address value →
            start.Holds address ∨ start.store.size ≤ address)
      (fun _ after => Confines start after) ∧
    ∀ printed ∈ start.output, ∀ address < start.store.size,
      start.store.Reaches address printed → ¬start.Holds address →
        ∀ later, LeadsOn start later →
          later.store.get? address = start.store.get? address := by
  constructor
  · exact confines_exec fuel statement start
  · intro printed _ address hlt _ hholds later hleads
    exact hleads.confines.unchanged address hlt hholds

/-- A record is written, and another one that has been printed stays empty. -/
theorem change_within_reach_beside_printed :
    let start : Context :=
      { store := ⟨#[.record .empty, .record .empty]⟩
        scopes := { outermost := ⟨[("x", .record 1)]⟩ }
        output := #[.record 0]
        random := { sample := fun _ => 0 } }
    let statement : Stmt := .assignProperty "x" "a" (.literal .null 1) 1
    ∃ after, exec 2 statement start = .ok .normal after ∧ Confines start after ∧
      start.store.Reaches 0 (.record 0) ∧ ¬start.Holds 0 ∧
      after.store.get? 1 = some (.record ⟨[("a", .null)]⟩) ∧
      after.store.get? 0 = some (.record .empty) := by
  intro start statement
  have hexec : exec 2 statement start =
      .ok .normal { start with store := ⟨#[.record .empty, .record ⟨[("a", .null)]⟩]⟩ } := rfl
  have hreaches : start.store.Reaches 0 (.record 0) := .here rfl
  have hholds : ¬start.Holds 0 := by
    rintro ⟨frame, hframe, name, value, hvalue, hbound⟩
    obtain rfl := List.mem_singleton.mp hframe
    have hentry := Table.mem_of_getEntry? hvalue
    cases List.mem_singleton.mp hentry
    cases hbound with
    | here haddress => cases haddress
    | inside haddress hitem _ =>
        cases haddress
        cases hitem
  have hchange := change_within_reach 2 statement start
  rw [hexec] at hchange
  have hprinted := hchange.2 (.record 0) (by simp [start]) 0 (by decide) hreaches hholds
  exact ⟨_, rfl, hchange.1.1, hreaches, hholds, rfl, hprinted _ (.ok hexec .here)⟩

end Bhasha
