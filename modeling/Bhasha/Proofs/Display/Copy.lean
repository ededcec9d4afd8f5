import Bhasha.Eval
import Bhasha.Proofs.Store.Closed
import Mathlib.Data.List.Forall2

/-!
# Expressions that build copies

An expression builds a copy of a value if it evaluates to one in every context, in containers that
it makes itself.  Constants build copies of numbers and texts, and a list or a record of expressions
builds a copy of a container if the expressions build copies of its contents.
-/

namespace Bhasha

/-- Every container of the store is as it was. -/
def Store.Extends (extended store : Store) : Prop :=
  ∀ address container, store.get? address = some container →
    extended.get? address = some container

/-- The copy in a store that has grown has the structure of the value, with equal numbers and the
same keys in the same order, and its containers stand at addresses from `low` on. -/
inductive Value.Copy (store : Store) (low : Address) (extended : Store) : Value → Value → Prop where
  | number {value copy : Float} :
      (copy == value) = true → Copy store low extended (.number value) (.number copy)
  | text (value : String) : Copy store low extended (.text value) (.text value)
  | list {address copied : Address} {items copies : Array Value} :
      store.get? address = some (.list items) → low ≤ copied →
      extended.get? copied = some (.list copies) → copies.size = items.size →
      (∀ (position : Nat) (item copy : Value), items[position]? = some item →
        copies[position]? = some copy → Copy store low extended item copy) →
      Copy store low extended (.list address) (.list copied)
  | record {address copied : Address} {fields copies : Table Value} :
      store.get? address = some (.record fields) → low ≤ copied →
      extended.get? copied = some (.record copies) → copies.names = fields.names →
      (∀ (position : Nat) (field copy : String × Value),
        fields.entries[position]? = some field → copies.entries[position]? = some copy →
        Copy store low extended field.2 copy.2) →
      Copy store low extended (.record address) (.record copied)

/-- In every context the expression evaluates to a copy of the value, and nothing else changes but
that containers are added. -/
def Expr.Builds (store : Store) (value : Value) (tree : Expr) : Prop :=
  ∃ fuel, ∀ more, fuel ≤ more → ∀ context : Context, ∃ copy extended,
    eval more tree context = .ok copy { context with store := extended } ∧
      extended.Extends context.store ∧ value.Copy store context.store.size extended copy

namespace Store.Extends

variable {store middle extended : Store}

theorem refl (store : Store) : store.Extends store :=
  fun _ _ h => h

theorem trans (h : middle.Extends store) (hlater : extended.Extends middle) :
    extended.Extends store :=
  fun address container hget => hlater address container (h address container hget)

theorem size_le (h : extended.Extends store) : store.size ≤ extended.size := by
  apply Nat.le_of_not_lt
  intro hlt
  have hget : store.get? extended.size = some store.containers[extended.size] :=
    Array.getElem?_eq_getElem hlt
  have hsame := h _ _ hget
  exact Nat.lt_irrefl _ (Array.getElem?_eq_some_iff.mp hsame).1

theorem add (store : Store) (container : Container) : (store.add container).Extends store := by
  intro address found hget
  have hlt : address < store.size := (Array.getElem?_eq_some_iff.mp hget).1
  rw [Store.get?_add, if_neg (Nat.ne_of_lt hlt)]
  exact hget

end Store.Extends

namespace Value.Copy

variable {store extended later : Store} {low lower : Address} {value copy : Value}

theorem mono (h : value.Copy store low extended copy) (hlower : lower ≤ low)
    (hlater : later.Extends extended) : value.Copy store lower later copy := by
  induction h with
  | number hsame => exact .number hsame
  | text value => exact .text value
  | list hget hlow hcopied hsize _ ih =>
      exact .list hget (Nat.le_trans hlower hlow) (hlater _ _ hcopied) hsize ih
  | record hget hlow hcopied hnames _ ih =>
      exact .record hget (Nat.le_trans hlower hlow) (hlater _ _ hcopied) hnames ih

/-- All containers of a copy stand at addresses from `low` on. -/
theorem low_le_of_reaches (h : value.Copy store low extended copy) {target : Address}
    (hreaches : extended.Reaches target copy) : low ≤ target := by
  induction h with
  | number | text =>
      cases hreaches with
      | here haddress => cases haddress
      | inside haddress => cases haddress
  | @list address copied items copies _ hlow hcopied hsize _ ih =>
      cases hreaches with
      | here haddress =>
          cases haddress
          exact hlow
      | @inside _ item _ haddress hitem hrest =>
          cases haddress
          rw [Store.contents_of_get? hcopied] at hitem
          obtain ⟨position, hposition⟩ := List.mem_iff_getElem?.mp hitem
          have hcopy : copies[position]? = some item := by
            rwa [← Array.getElem?_toList]
          have hlt : position < items.size := by
            rw [← hsize]
            exact (Array.getElem?_eq_some_iff.mp hcopy).1
          exact ih position _ _ (Array.getElem?_eq_getElem hlt) hcopy hrest
  | @record address copied fields copies _ hlow hcopied hnames _ ih =>
      cases hreaches with
      | here haddress =>
          cases haddress
          exact hlow
      | inside haddress hitem hrest =>
          cases haddress
          rw [Store.contents_of_get? hcopied] at hitem
          obtain ⟨entry, hentry, rfl⟩ := List.mem_map.mp hitem
          obtain ⟨position, hposition⟩ := List.mem_iff_getElem?.mp hentry
          have hlength : copies.entries.length = fields.entries.length := by
            have hsame := congrArg List.length hnames
            rwa [Table.names, Table.names, List.length_map, List.length_map] at hsame
          have hlt : position < fields.entries.length := by
            rw [← hlength]
            exact (List.getElem?_eq_some_iff.mp hposition).1
          exact ih position _ _ (List.getElem?_eq_getElem hlt) hposition hrest

end Value.Copy

namespace Expr

variable {store : Store} {value : Value}

theorem builds_number {number copy : Float} (h : (copy == number) = true) (line : Nat) :
    Builds store (.number number) (.literal (.number copy) line) := by
  refine ⟨1, ?_⟩
  intro more hmore context
  obtain ⟨fuel, rfl⟩ := Nat.exists_eq_add_of_le' hmore
  exact ⟨.number copy, context.store, rfl, .refl _, .number h⟩

theorem builds_negated {number copy : Float} (h : (-copy == number) = true) (first line : Nat) :
    Builds store (.number number) (.unary .negate (.literal (.number copy) line) first) := by
  refine ⟨2, ?_⟩
  intro more hmore context
  obtain ⟨fuel, rfl⟩ := Nat.exists_eq_add_of_le' hmore
  exact ⟨.number (-copy), context.store, rfl, .refl _, .number h⟩

theorem builds_text (text : String) (line : Nat) :
    Builds store (.text text) (.literal (.text text) line) := by
  refine ⟨1, ?_⟩
  intro more hmore context
  obtain ⟨fuel, rfl⟩ := Nat.exists_eq_add_of_le' hmore
  exact ⟨.text text, context.store, rfl, .refl _, .text text⟩

/-- Expressions that build copies are evaluated in turn, each in what those before it have left. -/
theorem evalAll_of_builds {values : List Value} {trees : List Expr}
    (h : List.Forall₂ (Builds store) values trees) :
    ∃ fuel, ∀ more, fuel ≤ more → ∀ context : Context, ∃ copies extended,
      evalAll (eval more) trees context = .ok copies { context with store := extended } ∧
        extended.Extends context.store ∧
        List.Forall₂ (fun value copy => value.Copy store context.store.size extended copy)
          values copies := by
  induction h with
  | nil =>
      refine ⟨0, ?_⟩
      intro more _ context
      exact ⟨[], context.store, rfl, .refl _, .nil⟩
  | @cons value tree values trees htree _ ih =>
      obtain ⟨fuel, hfirst⟩ := htree
      obtain ⟨rounds, hrest⟩ := ih
      refine ⟨max fuel rounds, ?_⟩
      intro more hmore context
      obtain ⟨copy, middle, heval, hmiddle, hcopy⟩ := hfirst more (by omega) context
      obtain ⟨copies, extended, hevalAll, hextended, hcopies⟩ :=
        hrest more (by omega) { context with store := middle }
      refine ⟨copy :: copies, extended, ?_, hmiddle.trans hextended, ?_⟩
      · unfold evalAll
        rw [Action.bind_apply, heval]
        simp only
        rw [Action.bind_apply, hevalAll]
        rfl
      · refine .cons (hcopy.mono (Nat.le_refl _) hextended) ?_
        exact hcopies.imp fun _ _ h => h.mono hmiddle.size_le (.refl _)

theorem builds_list {address : Address} {items : Array Value} {trees : List Expr} (line : Nat)
    (hget : store.get? address = some (.list items))
    (h : List.Forall₂ (Builds store) items.toList trees) :
    Builds store (.list address) (.list trees line) := by
  obtain ⟨fuel, hall⟩ := evalAll_of_builds h
  refine ⟨fuel + 1, ?_⟩
  intro more hmore context
  obtain ⟨rounds, rfl⟩ := Nat.exists_eq_add_of_le' hmore
  obtain ⟨copies, middle, heval, hmiddle, hcopies⟩ := hall (rounds + fuel) (by omega) context
  refine ⟨.list middle.size, middle.add (.list copies.toArray), ?_,
    hmiddle.trans (.add _ _), ?_⟩
  · change (evalAll (eval (rounds + fuel)) trees >>= fun values =>
      Action.newList values.toArray) context = _
    rw [Action.bind_apply, heval]
    rfl
  · have hcopied : (middle.add (.list copies.toArray)).get? middle.size =
        some (.list copies.toArray) := by
      rw [Store.get?_add, if_pos rfl]
    refine .list hget hmiddle.size_le hcopied ?_ ?_
    · simpa using hcopies.length_eq.symm
    · intro position item copy hitem hcopy
      rw [← Array.getElem?_toList] at hitem
      rw [List.getElem?_toArray] at hcopy
      obtain ⟨hposition, rfl⟩ := List.getElem?_eq_some_iff.mp hitem
      obtain ⟨hlength, rfl⟩ := List.getElem?_eq_some_iff.mp hcopy
      exact (hcopies.get hposition hlength).mono (Nat.le_refl _) (.add _ _)

theorem insertEntry_of_not_mem {name : String} {thing : Value} {entries : List (String × Value)}
    (h : name ∉ entries.map Prod.fst) :
    Table.insertEntry name thing entries = entries ++ [(name, thing)] := by
  induction entries with
  | nil => rfl
  | cons entry rest ih =>
      obtain ⟨other, old⟩ := entry
      simp only [List.map_cons, List.mem_cons, not_or] at h
      rw [Table.insertEntry, if_neg (Ne.symm h.1), ih h.2]
      rfl

/-- The entries of a record are evaluated in turn, and new keys come last. -/
theorem evalEntries_of_builds {fields : List (String × Value)} {entries : List (String × Expr)}
    (h : List.Forall₂ (fun field entry => entry.1 = field.1 ∧ Builds store field.2 entry.2)
      fields entries) :
    ∃ fuel, ∀ more, fuel ≤ more → ∀ (context : Context) (table : Table Value),
      (table.names ++ fields.map Prod.fst).Nodup → ∃ copies extended,
        evalEntries (eval more) table entries context =
            .ok ⟨table.entries ++ copies⟩ { context with store := extended } ∧
          extended.Extends context.store ∧
          List.Forall₂ (fun field copy => copy.1 = field.1 ∧
            field.2.Copy store context.store.size extended copy.2) fields copies := by
  induction h with
  | nil =>
      refine ⟨0, ?_⟩
      intro more _ context table _
      refine ⟨[], context.store, ?_, .refl _, .nil⟩
      rw [List.append_nil]
      rfl
  | @cons field entry fields entries hentry _ ih =>
      obtain ⟨name, value⟩ := field
      obtain ⟨key, tree⟩ := entry
      obtain ⟨rfl, fuel, hfirst⟩ := hentry
      obtain ⟨rounds, hrest⟩ := ih
      refine ⟨max fuel rounds, ?_⟩
      intro more hmore context table hnodup
      obtain ⟨copy, middle, heval, hmiddle, hcopy⟩ := hfirst more (by omega) context
      have hnew : key ∉ table.names := by
        intro hmem
        exact (List.nodup_append.mp hnodup).2.2 key hmem key (by simp) rfl
      have hinsert : table.insert key copy = ⟨table.entries ++ [(key, copy)]⟩ := by
        unfold Table.insert
        rw [insertEntry_of_not_mem hnew]
      have hlater : ((table.insert key copy).names ++ fields.map Prod.fst).Nodup := by
        rw [Table.names_insert, if_neg hnew, List.append_assoc]
        exact hnodup
      obtain ⟨copies, extended, hevalEntries, hextended, hcopies⟩ :=
        hrest more (by omega) { context with store := middle } _ hlater
      refine ⟨(key, copy) :: copies, extended, ?_, hmiddle.trans hextended, ?_⟩
      · unfold evalEntries
        rw [Action.bind_apply, heval]
        simp only
        rw [hevalEntries, hinsert, List.append_assoc]
        rfl
      · refine .cons ⟨rfl, hcopy.mono (Nat.le_refl _) hextended⟩ ?_
        exact hcopies.imp fun _ _ h => ⟨h.1, h.2.mono hmiddle.size_le (.refl _)⟩

theorem builds_record {address : Address} {fields : Table Value} {entries : List (String × Expr)}
    (line : Nat) (hget : store.get? address = some (.record fields)) (hnodup : fields.names.Nodup)
    (h : List.Forall₂ (fun field entry => entry.1 = field.1 ∧ Builds store field.2 entry.2)
      fields.entries entries) :
    Builds store (.record address) (.record entries line) := by
  obtain ⟨fuel, hall⟩ := evalEntries_of_builds h
  refine ⟨fuel + 1, ?_⟩
  intro more hmore context
  obtain ⟨rounds, rfl⟩ := Nat.exists_eq_add_of_le' hmore
  obtain ⟨copies, middle, heval, hmiddle, hcopies⟩ :=
    hall (rounds + fuel) (by omega) context .empty hnodup
  refine ⟨.record middle.size, middle.add (.record ⟨copies⟩), ?_, hmiddle.trans (.add _ _), ?_⟩
  · change (evalEntries (eval (rounds + fuel)) .empty entries >>= fun fields =>
      Action.newRecord fields) context = _
    rw [Action.bind_apply, heval]
    rfl
  · have hcopied : (middle.add (.record ⟨copies⟩)).get? middle.size = some (.record ⟨copies⟩) := by
      rw [Store.get?_add, if_pos rfl]
    refine .record hget hmiddle.size_le hcopied ?_ ?_
    · have hnames : List.Forall₂ (· = ·) (copies.map Prod.fst) (fields.entries.map Prod.fst) := by
        rw [List.forall₂_map_left_iff, List.forall₂_map_right_iff]
        exact (hcopies.imp fun _ _ h => h.1).flip
      rwa [List.forall₂_eq_eq_eq] at hnames
    · intro position field copy hfield hcopy
      obtain ⟨hposition, rfl⟩ := List.getElem?_eq_some_iff.mp hfield
      obtain ⟨hlength, rfl⟩ := List.getElem?_eq_some_iff.mp hcopy
      exact (hcopies.get hposition hlength).2.mono (Nat.le_refl _) (.add _ _)

end Expr

end Bhasha
