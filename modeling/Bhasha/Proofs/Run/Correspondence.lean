import Bhasha.Proofs.Program.Without
import Bhasha.Proofs.Run.Confined
import Bhasha.Proofs.Store.RenamedOperations

/-!
# Corresponding states

Two runs may differ in the addresses of containers, and in that one of them lacks the definitions
of some functions with hidden names.  Their states correspond if the store, the scopes and the
output of one are those of the other with the images of all addresses, and if both know the same
functions up to the hidden definitions.  An action tracks another one if from corresponding states
it comes to the same end in a corresponding state; what is known of the value and of the size of
the store is carried along.  Without hidden names both also run out of fuel together.
-/

namespace Bhasha

variable {α β : Type} {image : Address → Address} {hidden : String → Bool}

namespace Scopes

/-- The scopes with the images of all addresses. -/
def rename (image : Address → Address) (scopes : Scopes) : Scopes where
  inner := scopes.inner.map (·.map (·.rename image))
  outermost := scopes.outermost.map (·.rename image)

theorem push_rename (image : Address → Address) (scopes : Scopes) :
    (scopes.rename image).push = scopes.push.rename image :=
  rfl

theorem pop_rename (image : Address → Address) (scopes : Scopes) :
    (scopes.rename image).pop = scopes.pop.rename image := by
  simp [rename, pop, List.map_tail]

theorem getIn_rename (image : Address → Address) (name : String) (frames : List Frame) :
    getIn name (frames.map (·.map (·.rename image))) =
      (getIn name frames).map (·.rename image) := by
  induction frames with
  | nil => rfl
  | cons frame rest ih =>
      simp only [List.map_cons, getIn, Table.get?_map, ih]
      cases frame.get? name <;> rfl

theorem get?_rename (image : Address → Address) (scopes : Scopes) (name : String) :
    (scopes.rename image).get? name = (scopes.get? name).map (·.rename image) := by
  have hframes : (scopes.rename image).frames = scopes.frames.map (·.map (·.rename image)) := by
    simp [rename, frames]
  rw [get?, hframes, getIn_rename, get?]

theorem define_rename (image : Address → Address) (scopes : Scopes) (name : String)
    (value : Value) :
    (scopes.rename image).define name (value.rename image) =
      (scopes.define name value).rename image := by
  obtain ⟨inner, outermost⟩ := scopes
  cases inner <;> simp [rename, define, Table.insert_map]

theorem contains_map (change : α → β) (table : Table α) (name : String) :
    (table.map change).contains name = table.contains name := by
  simp [Table.contains, Table.get?_map]

theorem assignIn_rename (image : Address → Address) (name : String) (value : Value)
    (frames : List Frame) :
    assignIn name (value.rename image) (frames.map (·.map (·.rename image))) =
      (assignIn name value frames).map (·.map (·.map (·.rename image))) := by
  induction frames with
  | nil => rfl
  | cons frame rest ih =>
      simp only [List.map_cons, assignIn, contains_map, Table.insert_map, ih]
      split
      · rfl
      · cases assignIn name value rest <;> rfl

theorem assign?_rename (image : Address → Address) (scopes : Scopes) (name : String)
    (value : Value) :
    (scopes.rename image).assign? name (value.rename image) =
      (scopes.assign? name value).map (·.rename image) := by
  simp only [assign?, rename, assignIn_rename, contains_map, Table.insert_map]
  cases assignIn name value scopes.inner with
  | some inner => rfl
  | none =>
      simp only [Option.map_none]
      split <;> rfl

end Scopes

section

variable {inside wider : Address → Prop}

/-- All things of a table hold only addresses inside, those included that another one hides. -/
def Table.EntriesWithin (inside : Address → Prop) (table : Table Value) : Prop :=
  ∀ entry ∈ table.entries, entry.2.Within inside

theorem Table.EntriesWithin.insert {table : Table Value} (h : table.EntriesWithin inside)
    {value : Value} (hvalue : value.Within inside) (name : String) :
    (table.insert name value).EntriesWithin inside := by
  intro entry hentry
  rcases Table.mem_insertEntry hentry with hold | rfl
  · exact h entry hold
  · exact hvalue

namespace Scopes

def EntriesWithin (inside : Address → Prop) (scopes : Scopes) : Prop :=
  ∀ frame ∈ scopes.frames, frame.EntriesWithin inside

variable {scopes : Scopes}

theorem EntriesWithin.within (h : scopes.EntriesWithin inside) : scopes.Within inside :=
  fun frame hframe _ _ hvalue => h frame hframe _ ( Table.mem_of_getEntry? hvalue)

theorem EntriesWithin.mono (h : scopes.EntriesWithin inside)
    (hwider : ∀ address, inside address → wider address) : scopes.EntriesWithin wider :=
  fun frame hframe entry hentry => (h frame hframe entry hentry).mono hwider

theorem EntriesWithin.push (h : scopes.EntriesWithin inside) : scopes.push.EntriesWithin inside :=
  forall_frames_push h (List.forall_mem_nil _)

theorem EntriesWithin.pop (h : scopes.EntriesWithin inside) : scopes.pop.EntriesWithin inside :=
  forall_frames_pop h

theorem EntriesWithin.define (h : scopes.EntriesWithin inside) {value : Value}
    (hvalue : value.Within inside) (name : String) :
    (scopes.define name value).EntriesWithin inside :=
  forall_frames_define (fun _ hframe => hframe.insert hvalue name) h

theorem EntriesWithin.assign? (h : scopes.EntriesWithin inside) {name : String} {value : Value}
    (hvalue : value.Within inside) {written : Scopes}
    (hassign : scopes.assign? name value = some written) : written.EntriesWithin inside :=
  forall_frames_assign? (fun _ hframe => hframe.insert hvalue name) h hassign

end Scopes

end

/-- The right state is the left one with the images of all addresses, and its functions lack the
definitions of hidden names.  The left state holds no address that is not taken. -/
structure Context.Corresponds (image : Address → Address) (hidden : String → Bool)
    (left right : Context) : Prop where
  store : left.store.RenamedTo image right.store
  scopes : right.scopes = left.scopes.rename image
  bound : left.scopes.EntriesWithin (· < left.store.size)
  functions : right.functions = (left.functions.without hidden).map (·.without hidden)
  output : right.output = left.output.map (·.rename image)
  printed : ∀ value ∈ left.output, value.Within (· < left.store.size)
  callDepth : right.callDepth = left.callDepth
  config : right.config = left.config
  random : right.random = left.random

namespace Context.Corresponds

variable {left right : Context} (h : left.Corresponds image hidden right)

include h

theorem withScopes {scopes : Scopes} (hscopes : scopes.EntriesWithin (· < left.store.size)) :
    Context.Corresponds image hidden { left with scopes := scopes }
      { right with scopes := scopes.rename image } :=
  { h with scopes := rfl, bound := hscopes }

theorem withStore {store store' : Store} (hstore : store.RenamedTo image store')
    (hsize : left.store.size ≤ store.size) :
    Context.Corresponds image hidden { left with store := store }
      { right with store := store' } where
  store := hstore
  scopes := h.scopes
  bound := h.bound.mono fun _ haddress => Nat.lt_of_lt_of_le haddress hsize
  functions := h.functions
  output := h.output
  printed value hvalue :=
    (h.printed value hvalue).mono fun _ haddress => Nat.lt_of_lt_of_le haddress hsize
  callDepth := h.callDepth
  config := h.config
  random := h.random

theorem withEffect {effect : Effect} (heffect : effect.Within (· < left.store.size)) :
    Context.Corresponds image hidden { left with store := effect.apply left.store }
      { right with store := (effect.rename image).apply right.store } :=
  h.withStore (h.store.apply heffect) (Nat.le_of_eq (Effect.size_apply _ _).symm)

theorem withContainer {container : Container}
    (hcontainer : ∀ item ∈ container.contents, item.Within (· < left.store.size)) :
    Context.Corresponds image hidden { left with store := left.store.add container }
      { right with store := right.store.add (container.rename image) } :=
  h.withStore (h.store.add hcontainer) (by rw [Store.size_add]; omega)

end Context.Corresponds

namespace Outcome

/-- Two ends of the same kind, in corresponding states, with the same fault or with values that
correspond.  The store on the left has at least the given size, and something holds of the left
value in relation to the addresses that are taken. -/
inductive Tracks (image : Address → Address) (hidden : String → Bool) (size : Nat)
    (change : α → α) (holds : (Address → Prop) → α → Prop) : Outcome α → Outcome α → Prop where
  | ok {value : α} {left right : Context} :
      left.Corresponds image hidden right → size ≤ left.store.size →
      holds (· < left.store.size) value →
      Tracks image hidden size change holds (.ok value left) (.ok (change value) right)
  | fault {raised : Fault} {left right : Context} :
      left.Corresponds image hidden right → size ≤ left.store.size →
      Tracks image hidden size change holds (.fault raised left) (.fault raised right)
  | fatal : Tracks image hidden size change holds .fatal .fatal
  | outOfFuel {second : Outcome α} :
      ((∀ name, hidden name = false) → second = .outOfFuel) →
      Tracks image hidden size change holds .outOfFuel second

variable {size : Nat} {change : α → α} {holds : (Address → Prop) → α → Prop}
  {first second : Outcome α}

theorem Tracks.of_le {smaller : Nat} (h : Tracks image hidden size change holds first second)
    (hle : smaller ≤ size) : Tracks image hidden smaller change holds first second := by
  cases h with
  | ok hend hsize hvalue => exact .ok hend (Nat.le_trans hle hsize) hvalue
  | fault hend hsize => exact .fault hend (Nat.le_trans hle hsize)
  | fatal => exact .fatal
  | outOfFuel hsecond => exact .outOfFuel hsecond

end Outcome

/-- From corresponding states in which the store has at least the given size, the second action
comes to the end that the first one comes to. -/
def Action.Tracks (image : Address → Address) (hidden : String → Bool) (size : Nat)
    (change : α → α) (holds : (Address → Prop) → α → Prop) (first second : Action α) : Prop :=
  ∀ left right, left.Corresponds image hidden right → size ≤ left.store.size →
    (first left).Tracks image hidden left.store.size change holds (second right)

/-- Nothing is said of the value. -/
def Unrestricted (_ : Address → Prop) (_ : α) : Prop :=
  True

section

open Action Outcome

variable {size : Nat} {change : α → α} {change' : β → β} {holds : (Address → Prop) → α → Prop}
  {holds' : (Address → Prop) → β → Prop} {first second : Action α}

theorem Action.Tracks.of_le {larger : Nat} (h : Tracks image hidden size change holds first second)
    (hle : size ≤ larger) : Tracks image hidden larger change holds first second :=
  fun left right hstart hsize => h left right hstart (Nat.le_trans hle hsize)

theorem tracks_pure {value : α} (h : ∀ larger, size ≤ larger → holds (· < larger) value) :
    Tracks image hidden size change holds (pure value) (pure (change value)) :=
  fun left _ hstart hsize => .ok hstart (Nat.le_refl _) (h left.store.size hsize)

theorem Action.Tracks.bind {next next' : α → Action β}
    (h : Tracks image hidden size change holds first second)
    (hnext : ∀ larger value, size ≤ larger → holds (· < larger) value →
      Tracks image hidden larger change' holds' (next value) (next' (change value))) :
    Tracks image hidden size change' holds' (first >>= next) (second >>= next') := by
  intro left right hstart hsize
  have hfirst := h left right hstart hsize
  rw [bind_apply, bind_apply]
  generalize first left = leftEnd at hfirst ⊢
  generalize second right = rightEnd at hfirst ⊢
  cases hfirst with
  | ok hmiddle hle hvalue =>
      exact (hnext _ _ (Nat.le_trans hsize hle) hvalue _ _ hmiddle (Nat.le_refl _)).of_le hle
  | fault hend hle => exact .fault hend hle
  | fatal => exact .fatal
  | outOfFuel hsecond =>
      refine .outOfFuel fun hnone => ?_
      rw [hsecond hnone]

theorem tracks_modify {modify modify' : Context → Context}
    (h : ∀ left right, left.Corresponds image hidden right → size ≤ left.store.size →
      (modify left).Corresponds image hidden (modify' right) ∧
        (modify left).store = left.store) :
    Tracks image hidden size id Unrestricted (Action.modify modify) (Action.modify modify') := by
  intro left right hstart hsize
  obtain ⟨hend, hstore⟩ := h left right hstart hsize
  exact .ok hend (Nat.le_of_eq (congrArg Store.size hstore).symm) trivial

theorem tracks_raise (cause : FaultCause) (line : Nat) :
    Tracks image hidden size change holds (raise cause line) (raise cause line) :=
  fun _ _ hstart _ => .fault hstart (Nat.le_refl _)

theorem tracks_reading {read read' : Store → Except Fault α}
    (h : ∀ left right : Store, left.RenamedTo image right → size ≤ left.size →
      read' right = (read left).map change ∧ Gives (holds (· < left.size)) (read left)) :
    Tracks image hidden size change holds (reading read) (reading read') := by
  intro left right hstart hsize
  obtain ⟨hread, hgives⟩ := h left.store right.store hstart.store hsize
  unfold reading Action.ofExcept
  rw [hread]
  cases hresult : read left.store with
  | ok value => exact .ok hstart (Nat.le_refl _) (hgives value hresult)
  | error raised => exact .fault hstart (Nat.le_refl _)

theorem tracks_ofExcept {result result' : Except Fault α} (hresult : result' = result.map change)
    (h : ∀ larger, size ≤ larger → Gives (holds (· < larger)) result) :
    Tracks image hidden size change holds (Action.ofExcept result) (Action.ofExcept result') :=
  tracks_reading fun left _ _ hsize => ⟨hresult, h left.size hsize⟩

theorem tracks_writing {write write' : Store → Except Halt (α × Effect)}
    (h : ∀ left right : Store, left.RenamedTo image right → size ≤ left.size →
      write' right = (write left).map (renameWritten image change) ∧
        Gives (fun written => holds (· < left.size) written.1 ∧ written.2.Within (· < left.size))
          (write left)) :
    Tracks image hidden size change holds (writing write) (writing write') := by
  intro left right hstart hsize
  obtain ⟨hwrite, hgives⟩ := h left.store right.store hstart.store hsize
  unfold writing
  rw [hwrite]
  cases hresult : write left.store with
  | ok written =>
      obtain ⟨hvalue, heffect⟩ := hgives written hresult
      have hsame : (written.2.apply left.store).size = left.store.size := Effect.size_apply _ _
      refine .ok (hstart.withEffect heffect) (Nat.le_of_eq hsame.symm) ?_
      simpa only [hsame] using hvalue
  | error halt =>
      cases halt with
      | fault raised => exact .fault hstart (Nat.le_refl _)
      | fatal => exact .fatal

theorem Action.Tracks.deeper (h : Tracks image hidden size change holds first second) :
    Tracks image hidden size change holds (deeper first) (deeper second) := by
  intro left right hstart hsize
  have hinner : Context.Corresponds image hidden { left with callDepth := left.callDepth + 1 }
      { right with callDepth := right.callDepth + 1 } :=
    { hstart with callDepth := by rw [hstart.callDepth] }
  have hbody := h _ _ hinner hsize
  unfold Action.deeper
  generalize first _ = leftEnd at hbody ⊢
  generalize second _ = rightEnd at hbody ⊢
  cases hbody with
  | ok hend hle hvalue => exact .ok { hend with callDepth := by rw [hend.callDepth] } hle hvalue
  | fault hend hle => exact .fault { hend with callDepth := by rw [hend.callDepth] } hle
  | fatal => exact .fatal
  | outOfFuel hsecond =>
      refine .outOfFuel fun hnone => ?_
      rw [hsecond hnone]

theorem Action.Tracks.withScope (h : Tracks image hidden size change holds first second) :
    Tracks image hidden size change holds (withScope first) (withScope second) := by
  intro left right hstart hsize
  have hinner : Context.Corresponds image hidden { left with scopes := left.scopes.push }
      { right with scopes := right.scopes.push } := by
    rw [hstart.scopes, Scopes.push_rename]
    exact hstart.withScopes hstart.bound.push
  have hbody := h _ _ hinner hsize
  unfold Action.withScope
  generalize first _ = leftEnd at hbody ⊢
  generalize second _ = rightEnd at hbody ⊢
  cases hbody with
  | @ok value left right hend hle hvalue =>
      have hpop := hend.withScopes hend.bound.pop
      rw [← Scopes.pop_rename, ← hend.scopes] at hpop
      exact .ok hpop hle hvalue
  | @fault raised left right hend hle =>
      have hpop := hend.withScopes hend.bound.pop
      rw [← Scopes.pop_rename, ← hend.scopes] at hpop
      exact .fault hpop hle
  | fatal => exact .fatal
  | outOfFuel hsecond =>
      refine .outOfFuel fun hnone => ?_
      rw [hsecond hnone]

theorem Action.Tracks.handling {handler handler' : Fault → Action α}
    (h : Tracks image hidden size change holds first second)
    (hhandler : ∀ raised,
      Tracks image hidden size change holds (handler raised) (handler' raised)) :
    Tracks image hidden size change holds (handling first handler) (handling second handler') := by
  intro left right hstart hsize
  have hbody := h left right hstart hsize
  unfold Action.handling
  generalize first left = leftEnd at hbody ⊢
  generalize second right = rightEnd at hbody ⊢
  cases hbody with
  | ok hend hle hvalue => exact .ok hend hle hvalue
  | fault hend hle => exact (hhandler _ _ _ hend (Nat.le_trans hsize hle)).of_le hle
  | fatal => exact .fatal
  | outOfFuel hsecond =>
      refine .outOfFuel fun hnone => ?_
      rw [hsecond hnone]

theorem tracks_define {value : Value} (hvalue : value.Within (· < size)) (name : String) :
    Tracks image hidden size id Unrestricted (define name value)
      (define name (value.rename image)) := by
  apply tracks_modify
  intro left right hstart hsize
  have hlater := hvalue.mono fun _ haddress => Nat.lt_of_lt_of_le haddress hsize
  have hdefine := hstart.withScopes (hstart.bound.define hlater name)
  rw [← Scopes.define_rename, ← hstart.scopes] at hdefine
  exact ⟨hdefine, rfl⟩

theorem tracks_assign {value : Value} (hvalue : value.Within (· < size)) (name : String)
    (line : Nat) :
    Tracks image hidden size id Unrestricted (assign name value line)
      (assign name (value.rename image) line) := by
  intro left right hstart hsize
  have hlater := hvalue.mono fun _ haddress => Nat.lt_of_lt_of_le haddress hsize
  unfold assign
  rw [hstart.scopes, Scopes.assign?_rename]
  cases hassign : left.scopes.assign? name value with
  | none => exact .fault hstart (Nat.le_refl _)
  | some scopes =>
      exact .ok (hstart.withScopes (hstart.bound.assign? hlater hassign)) (Nat.le_refl _) trivial

theorem tracks_lookup (name : String) (line : Nat) :
    Tracks image hidden size (·.rename image) Value.Within (lookup name line)
      (lookup name line) := by
  intro left right hstart _
  unfold lookup
  rw [hstart.scopes, Scopes.get?_rename]
  cases hvalue : left.scopes.get? name with
  | none => exact .fault hstart (Nat.le_refl _)
  | some value => exact .ok hstart (Nat.le_refl _) (Scopes.within_getIn hstart.bound.within hvalue)

theorem tracks_print {value : Value} (hvalue : value.Within (· < size)) :
    Tracks image hidden size id Unrestricted (print value) (print (value.rename image)) := by
  apply tracks_modify
  intro left right hstart hsize
  have hlater := hvalue.mono fun _ haddress => Nat.lt_of_lt_of_le haddress hsize
  refine ⟨{ hstart with output := ?_, printed := ?_ }, rfl⟩
  · rw [hstart.output, Array.map_push]
  · intro other hother
    rcases Array.mem_push.mp hother with hold | rfl
    · exact hstart.printed other hold
    · exact hlater

theorem tracks_nextDraw : Tracks image hidden size id Unrestricted nextDraw nextDraw := by
  intro left right hstart _
  unfold nextDraw
  rw [hstart.random]
  exact .ok hstart (Nat.le_refl _) trivial

/-- A new container gets addresses that correspond. -/
theorem tracks_add (container : Container) (value : Address → Value)
    (hvalue : ∀ address, (value address).address? = some address)
    (himage : ∀ address, (value address).rename image = value (image address))
    (hcontainer : ∀ item ∈ container.contents, item.Within (· < size)) :
    Tracks image hidden size (·.rename image) Value.Within
      (fun context =>
        .ok (value context.store.size) { context with store := context.store.add container })
      (fun context => .ok (value context.store.size)
        { context with store := context.store.add (container.rename image) }) := by
  intro left right hstart hsize
  have hnext : image left.store.size = right.store.size := hstart.store.next 0
  have hlater : ∀ item ∈ container.contents, item.Within (· < left.store.size) :=
    fun item hitem =>
      (hcontainer item hitem).mono fun _ haddress => Nat.lt_of_lt_of_le haddress hsize
  have hend : Outcome.Tracks image hidden left.store.size (·.rename image) Value.Within
      (.ok (value left.store.size) { left with store := left.store.add container })
      (.ok ((value left.store.size).rename image)
        { right with store := right.store.add (container.rename image) }) := by
    refine .ok (hstart.withContainer hlater) ?_ ?_
    · rw [Store.size_add]
      omega
    · intro address haddress
      rw [hvalue] at haddress
      cases haddress
      exact Nat.lt_of_lt_of_eq (Nat.lt_succ_self _) (Store.size_add _ _).symm
  rwa [himage, hnext] at hend

end

end Bhasha
