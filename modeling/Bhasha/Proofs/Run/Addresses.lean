import Bhasha.Proofs.Run.Simulation

/-!
# Results do not depend on addresses

The containers of a state may stand at other addresses, in another order and with others between
them.  A run from such a state comes to the same end with the same fault, flow and values, up to
the addresses in them, and what is shown is the same.  The containers that are made meanwhile
correspond one by one, in the order in which they are made.
-/

namespace Bhasha

variable {α : Type} {image other : Address → Address} {left right : Context}

/-- Every address that the state holds is one of a container.  Runs start in such a state and keep
to such states, as an address is never made without its container. -/
structure Context.Sound (context : Context) : Prop where
  store : context.store.Closed (· < context.store.size)
  scopes : context.scopes.EntriesWithin (· < context.store.size)
  output : ∀ value ∈ context.output, value.Within (· < context.store.size)

/-- The right state is the left one with its containers at the images of their addresses, which are
different for different containers. -/
structure Context.Relocated (image : Address → Address) (left right : Context) : Prop where
  injective : ∀ first < left.store.size, ∀ second < left.store.size,
    image first = image second → first = second
  containers : ∀ address < left.store.size,
    right.store.get? (image address) = (left.store.get? address).map (·.rename image)
  scopes : right.scopes = left.scopes.rename image
  output : right.output = left.output.map (·.rename image)
  functions : right.functions = left.functions
  callDepth : right.callDepth = left.callDepth
  config : right.config = left.config
  random : right.random = left.random

/-- Two ends of the same kind, with the same fault or with values that differ in their addresses
only, in states that differ in their addresses only and that give their next containers addresses
that correspond. -/
inductive Outcome.Relocated (image : Address → Address) (change : α → α) :
    Outcome α → Outcome α → Prop where
  | ok {value : α} {left right : Context} :
      left.Sound → left.Relocated image right → image left.store.size = right.store.size →
      Relocated image change (.ok value left) (.ok (change value) right)
  | fault {raised : Fault} {left right : Context} :
      left.Sound → left.Relocated image right → image left.store.size = right.store.size →
      Relocated image change (.fault raised left) (.fault raised right)
  | fatal : Relocated image change .fatal .fatal
  | outOfFuel : Relocated image change .outOfFuel .outOfFuel

/-- The texts of what a program has printed, if it has ended well. -/
def Outcome.shown : Outcome (Array Value) → Option (Array String)
  | .ok output context => some (output.map (·.display context.store))
  | _ => none

/-- The images of the addresses below `size`, and for the later ones those from `size'` on. -/
def continued (image : Address → Address) (size size' : Nat) (address : Address) : Address :=
  if address < size then image address else size' + (address - size)

theorem continued_of_lt {size size' : Nat} {address : Address} (h : address < size) :
    continued image size size' address = image address :=
  if_pos h

theorem continued_add (image : Address → Address) (size size' count : Nat) :
    continued image size size' (size + count) = size' + count := by
  rw [continued, if_neg (Nat.not_lt.mpr (Nat.le_add_right _ _)), Nat.add_sub_cancel_left]

section

/-- Images that agree on an address give the same value. -/
theorem Value.rename_congr {value : Value}
    (h : value.Within fun address => image address = other address) :
    value.rename image = value.rename other := by
  cases value with
  | list address => exact congrArg Value.list (h address rfl)
  | record address => exact congrArg Value.record (h address rfl)
  | _ => rfl

theorem Table.rename_congr {table : Table Value}
    (h : table.EntriesWithin fun address => image address = other address) :
    table.map (·.rename image) = table.map (·.rename other) := by
  unfold Table.map
  congr 1
  apply List.map_congr_left
  intro entry hentry
  simp only [Value.rename_congr (h entry hentry)]

theorem Container.rename_congr {container : Container}
    (h : ∀ item ∈ container.contents, item.Within fun address => image address = other address) :
    container.rename image = container.rename other := by
  cases container with
  | list items =>
      have hitems : ∀ item ∈ items, item.rename image = item.rename other :=
        fun item hitem => Value.rename_congr (h item (Array.mem_toList_iff.mpr hitem))
      simp only [rename, Array.map_congr_left hitems]
  | record fields =>
      have hfields := Table.rename_congr (List.forall_mem_map.mp h)
      simp only [rename, hfields]

theorem Scopes.rename_congr {scopes : Scopes}
    (h : scopes.EntriesWithin fun address => image address = other address) :
    scopes.rename image = scopes.rename other := by
  unfold rename
  congr 1
  · apply List.map_congr_left
    exact fun frame hframe => Table.rename_congr (h frame (List.mem_append_left _ hframe))
  · exact Table.rename_congr (h _ (List.mem_append_right _ (List.mem_singleton_self _)))

end

namespace Context.Relocated

variable (h : left.Relocated image right) (hsound : left.Sound)

include h

theorem image_lt_size {address : Address} (haddress : address < left.store.size) :
    image address < right.store.size := by
  rw [← Store.isSome_get?, h.containers address haddress, Option.isSome_map, Store.isSome_get?]
  exact haddress

theorem image_ne_free {address : Address} (haddress : address < left.store.size) (count : Nat) :
    image address ≠ right.store.size + count :=
  Nat.ne_of_lt (Nat.lt_add_right count (h.image_lt_size haddress))

include hsound

/-- The stores correspond, and the containers that are still to be made have images, too. -/
theorem renamedTo_continued :
    left.store.RenamedTo (continued image left.store.size right.store.size) right.store where
  injective first second hsame := by
    -- Both taken, both free, or one of each: then one image is taken on the right and one is free.
    unfold continued at hsame
    split at hsame <;> split at hsame
    next hfirst hsecond => exact h.injective first hfirst second hsecond hsame
    next hfirst _ => exact absurd hsame (h.image_ne_free hfirst _)
    next _ hsecond => exact absurd hsame.symm (h.image_ne_free hsecond _)
    next hfirst hsecond =>
      have hfirst' := Nat.add_sub_of_le (Nat.not_lt.mp hfirst)
      have hsecond' := Nat.add_sub_of_le (Nat.not_lt.mp hsecond)
      rw [← hfirst', ← hsecond', Nat.add_left_cancel hsame]
  get? address := by
    by_cases haddress : address < left.store.size
    · rw [continued_of_lt haddress, h.containers address haddress]
      cases hcontainer : left.store.get? address with
      | none => rfl
      | some container =>
          have hagree : ∀ item ∈ container.contents, item.Within fun address =>
              image address = continued image left.store.size right.store.size address := by
            intro item hitem
            rw [← Store.contents_of_get? hcontainer] at hitem
            exact (hsound.store address haddress item hitem).mono
              fun _ hlt => (continued_of_lt hlt).symm
          simp only [Option.map_some, Container.rename_congr hagree]
    · have hleft : left.store.get? address = none :=
        Array.getElem?_eq_none (Nat.not_lt.mp haddress)
      have hright : right.store.get? (right.store.size + (address - left.store.size)) = none :=
        Array.getElem?_eq_none (Nat.le_add_right _ _)
      rw [continued, if_neg haddress, hleft, hright]
      rfl
  next count := continued_add image _ _ count
  closed := hsound.store

theorem corresponds :
    left.Corresponds (continued image left.store.size right.store.size) (fun _ => false) right where
  store := h.renamedTo_continued hsound
  scopes := by
    rw [h.scopes]
    exact Scopes.rename_congr (hsound.scopes.mono fun _ hlt => (continued_of_lt hlt).symm)
  bound := hsound.scopes
  functions := by
    rw [h.functions, Table.without_eq_self fun _ => rfl,
      Table.map_eq_self (Function.without_eq_self fun _ => rfl)]
  output := by
    rw [h.output]
    apply Array.map_congr_left
    intro value hvalue
    exact Value.rename_congr
      ((hsound.output value hvalue).mono fun _ hlt => (continued_of_lt hlt).symm)
  printed := hsound.output
  callDepth := h.callDepth
  config := h.config
  random := h.random

end Context.Relocated

theorem Context.sound_initial (config : Config) (random : RandomSource) :
    Context.Sound { config := config, random := random } where
  store _ haddress := absurd haddress (Nat.not_lt_zero _)
  scopes := by
    intro frame hframe
    cases List.mem_singleton.mp hframe
    exact List.forall_mem_nil _
  output := by simp

namespace Context.Corresponds

variable {hidden : String → Bool} (h : left.Corresponds image hidden right)

include h

theorem sound : left.Sound :=
  ⟨h.store.closed, h.bound, h.printed⟩

theorem relocated (hnone : ∀ name, hidden name = false) : left.Relocated image right where
  injective _ _ _ _ hsame := h.store.injective hsame
  containers address _ := h.store.get? address
  scopes := h.scopes
  output := h.output
  functions := by
    rw [h.functions, Table.without_eq_self hnone,
      Table.map_eq_self (Function.without_eq_self hnone)]
  callDepth := h.callDepth
  config := h.config
  random := h.random

end Context.Corresponds

section

variable {hidden : String → Bool} {size : Nat} {change : α → α}
  {holds : (Address → Prop) → α → Prop}

theorem Outcome.Tracks.relocated {first second : Outcome α}
    (h : Tracks image hidden size change holds first second)
    (hnone : ∀ name, hidden name = false) : first.Relocated image change second := by
  cases h with
  | ok hend _ _ => exact .ok hend.sound (hend.relocated hnone) (hend.store.next 0)
  | fault hend _ => exact .fault hend.sound (hend.relocated hnone) (hend.store.next 0)
  | fatal => exact .fatal
  | outOfFuel hsecond =>
      rw [hsecond hnone]
      exact .outOfFuel

theorem Outcome.Tracks.shown_eq {first second : Outcome (Array Value)}
    (h : Tracks image hidden size (·.map (·.rename image))
      (fun inside output => ∀ value ∈ output, value.Within inside) first second)
    (hnone : ∀ name, hidden name = false) : second.shown = first.shown := by
  cases h with
  | ok hend _ hvalues =>
      simp only [Outcome.shown, Array.map_map]
      congr 1
      apply Array.map_congr_left
      exact fun value hvalue => Value.display_rename hend.store (hvalues value hvalue)
  | fault _ _ => rfl
  | fatal => rfl
  | outOfFuel hsecond => rw [hsecond hnone]

end

namespace Context.Relocated

variable (h : left.Relocated image right) (hsound : left.Sound)

theorem rename_continued {value : Value} (hvalue : value.Within (· < left.store.size)) :
    value.rename image = value.rename (continued image left.store.size right.store.size) :=
  Value.rename_congr (hvalue.mono fun _ haddress => (continued_of_lt haddress).symm)

include h hsound

theorem display_eq {value : Value} (hvalue : value.Within (· < left.store.size)) :
    (value.rename image).display right.store = value.display left.store := by
  rw [rename_continued hvalue]
  exact Value.display_rename (h.renamedTo_continued hsound) hvalue

theorem toNumber_eq {value : Value} (hvalue : value.Within (· < left.store.size)) :
    (value.rename image).toNumber right.store = value.toNumber left.store := by
  rw [rename_continued hvalue]
  exact Value.toNumber_rename (h.renamedTo_continued hsound) hvalue

theorem looselyEquals_eq {value other : Value} (hvalue : value.Within (· < left.store.size))
    (hother : other.Within (· < left.store.size)) :
    (value.rename image).looselyEquals (other.rename image) = value.looselyEquals other := by
  rw [rename_continued hvalue, rename_continued hother]
  exact Value.looselyEquals_rename (h.renamedTo_continued hsound).injective value other

theorem output_display :
    right.output.map (·.display right.store) = left.output.map (·.display left.store) := by
  rw [h.output, Array.map_map]
  apply Array.map_congr_left
  exact fun value hvalue => h.display_eq hsound (hsound.output value hvalue)

end Context.Relocated

/-- Results do not depend on addresses.  In a state whose containers stand elsewhere, every value
has the same text and the same number, equality is the same, and what has been printed reads the
same.  Expressions, statements and programs come to the same ends as in the state itself, up to
images of addresses that are those given for the containers that are there, and that pair off the
containers that are made later. -/
theorem run_of_relocated (hsound : left.Sound) (h : left.Relocated image right) :
    (∀ value : Value, value.Within (· < left.store.size) →
      (value.rename image).display right.store = value.display left.store ∧
        (value.rename image).toNumber right.store = value.toNumber left.store) ∧
    (∀ value other : Value, value.Within (· < left.store.size) →
      other.Within (· < left.store.size) →
        (value.rename image).looselyEquals (other.rename image) = value.looselyEquals other) ∧
    right.output.map (·.display right.store) = left.output.map (·.display left.store) ∧
    ∃ extended : Address → Address,
      (∀ address < left.store.size, extended address = image address) ∧
      (∀ count, extended (left.store.size + count) = right.store.size + count) ∧
      ∀ fuel,
        (∀ expr, (eval fuel expr left).Relocated extended (·.rename extended)
          (eval fuel expr right)) ∧
        (∀ statement, (exec fuel statement left).Relocated extended (·.rename extended)
          (exec fuel statement right)) ∧
        ∀ program : Program,
          (program.evaluate fuel left).Relocated extended (·.map (·.rename extended))
            (program.evaluate fuel right) ∧
          (program.evaluate fuel right).shown = (program.evaluate fuel left).shown := by
  have hnone : ∀ name : String, (fun _ => false) name = false := fun _ => rfl
  have hhidden : ∀ name : String, (fun _ => false) name = true → (Builtin.ofName? name).isSome :=
    fun _ => nofun
  have hstart := h.corresponds hsound
  refine ⟨fun value hvalue => ⟨h.display_eq hsound hvalue, h.toNumber_eq hsound hvalue⟩,
    fun value other => h.looselyEquals_eq hsound, h.output_display hsound,
    continued image left.store.size right.store.size, fun address => continued_of_lt,
    continued_add image _ _, fun fuel => ⟨fun expr => ?_, fun statement => ?_, fun program => ?_⟩⟩
  · have hends := (tracks_eval_exec hhidden fuel).1 0 expr left right hstart (Nat.zero_le _)
    exact hends.relocated hnone
  · have hkept := Stmt.definesHidden_eq_false hnone statement
    have hends := (tracks_eval_exec hhidden fuel).2.kept 0 statement hkept left right hstart
      (Nat.zero_le _)
    rw [Stmt.without_eq_self hnone] at hends
    exact hends.relocated hnone
  · have hends := tracks_evaluate hhidden program fuel left right hstart (Nat.zero_le _)
    rw [Stmt.withoutBlock_eq_self hnone] at hends
    exact ⟨hends.relocated hnone, hends.shown_eq hnone⟩

/-- A record that holds itself and a list that holds the record change places, and a list that
nothing refers to stands before them. -/
theorem run_of_relocated_cycle :
    let random : RandomSource := { sample := fun _ => 0 }
    let left : Context :=
      { store := ⟨#[.list #[.record 1], .record ⟨[("me", .record 1), ("all", .list 0)]⟩]⟩
        scopes := { outermost := ⟨[("a", .list 0)]⟩ }
        output := #[.record 1]
        random := random }
    let right : Context :=
      { store := ⟨#[.list #[], .record ⟨[("me", .record 1), ("all", .list 2)]⟩, .list #[.record 1]]⟩
        scopes := { outermost := ⟨[("a", .list 2)]⟩ }
        output := #[.record 1]
        random := random }
    let image : Address → Address := fun address => 2 - address
    left.Sound ∧ left.Relocated image right ∧
      (Value.list 2).display right.store = (Value.list 0).display left.store ∧
      ∃ extended : Address → Address, extended 0 = 2 ∧ extended 1 = 1 ∧ extended 2 = 3 ∧
        (exec 5 (.print (.list [.var "a" 1] 1) 1) left).Relocated extended (·.rename extended)
          (exec 5 (.print (.list [.var "a" 1] 1) 1) right) := by
  intro random left right image
  have hlist : (Value.list 0).Within (· < left.store.size) := by
    rintro _ ⟨⟩
    decide
  have hrecord : (Value.record 1).Within (· < left.store.size) := by
    rintro _ ⟨⟩
    decide
  have hsound : left.Sound := by
    refine ⟨?_, ?_, ?_⟩
    · intro address haddress
      match address with
      | 0 => exact List.forall_mem_singleton.mpr hrecord
      | 1 => exact List.forall_mem_cons.mpr ⟨hrecord, List.forall_mem_singleton.mpr hlist⟩
    · exact List.forall_mem_singleton.mpr (List.forall_mem_singleton.mpr hlist)
    · intro value hvalue
      cases Array.mem_singleton.mp hvalue
      exact hrecord
  have hrelocated : left.Relocated image right := by
    refine ⟨by decide, ?_, rfl, by simp [left, right, image], rfl, rfl, rfl, rfl⟩
    intro address haddress
    match address with
    | 0 => simp [left, right, image, Store.get?, Container.rename]
    | 1 => rfl
  obtain ⟨hvalues, -, -, extended, htaken, hnext, hruns⟩ := run_of_relocated hsound hrelocated
  exact ⟨hsound, hrelocated, (hvalues (.list 0) hlist).1, extended, htaken 0 (by decide),
    htaken 1 (by decide), hnext 0, (hruns 5).2.1 _⟩

end Bhasha
