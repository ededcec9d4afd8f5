import Bhasha.Proofs.Store.Closed
import Mathlib.Data.Finset.Range
import Mathlib.Data.Finset.SDiff
import Mathlib.Data.Finset.Card

/-!
# Values unfolded into trees

What is shown of a value is a tree: a container holds the trees of its contents, and a container
that is cut off holds nothing.  A tree that is cut exactly where a container would be met again
inside itself exists for every value, and there is only one.  Its text is the text of the value, so
the bound on the depth of the display never cuts anything off.
-/

namespace Bhasha

/-- What is shown of a value. -/
inductive Unfolding where
  | constant (literal : Literal)
  | list (address : Address) (items : List Unfolding)
  | record (address : Address) (entries : List (String × Unfolding))
  | cutList (address : Address)
  | cutRecord (address : Address)

/-- The text of a constant inside a container. -/
def Literal.innerText : Literal → List Char
  | number value => Number.digits value
  | text value => Text.quoted value.toList
  | boolean value => Value.booleanText value
  | null => Value.nullText

namespace Unfolding

/-- The value that is unfolded. -/
def root : Unfolding → Value
  | constant literal => literal.toValue
  | list address _ | cutList address => .list address
  | record address _ | cutRecord address => .record address

/-- The trees that a tree is put together of. -/
def parts : Unfolding → List Unfolding
  | list _ items => items
  | record _ entries => entries.map Prod.snd
  | constant _ | cutList _ | cutRecord _ => []

/-- A container that is cut off. -/
def IsCut : Unfolding → Prop
  | cutList _ | cutRecord _ => True
  | constant _ | list .. | record .. => False

/-- The text of a tree inside a container. -/
def text : Unfolding → List Char
  | constant literal => literal.innerText
  | list _ items => '[' :: Value.commaSeparated (items.map text) ++ [']']
  | record _ entries =>
      '{' :: Value.commaSeparated
        (entries.map fun entry => entry.1.toList ++ ':' :: ' ' :: entry.2.text) ++ ['}']
  | cutList _ => Value.listEllipsis
  | cutRecord _ => Value.recordEllipsis
decreasing_by
  · decreasing_tactic
  · have hentry := List.sizeOf_lt_of_mem ‹entry ∈ entries›
    have hpair : sizeOf entry = 1 + sizeOf entry.1 + sizeOf entry.2 := rfl
    simp only [record.sizeOf_spec]
    omega

/-- The text of a tree by itself, where a text is not quoted. -/
def shown : Unfolding → String
  | constant (.text value) => value
  | tree => String.ofList tree.text

/-- A tree stands in another one, which itself stands beneath the containers of a path.  The
innermost container comes first. -/
inductive Stands (found : Unfolding) (inner : List Address) : List Address → Unfolding → Prop where
  | here : Stands found inner inner found
  | inside {path : List Address} {tree part : Unfolding} {address : Address} :
      tree.root.address? = some address → part ∈ tree.parts →
      Stands found inner (address :: path) part → Stands found inner path tree

/-- The containers that are not cut off hold trees of all their contents, in order. -/
inductive Agrees (store : Store) : Unfolding → Prop where
  | constant (literal : Literal) : Agrees store (.constant literal)
  | list {address : Address} {items : List Unfolding} :
      items.map root = (store.items address).toList → (∀ item ∈ items, Agrees store item) →
      Agrees store (.list address items)
  | record {address : Address} {entries : List (String × Unfolding)} :
      (entries.map fun entry => (entry.1, entry.2.root)) = (store.fields address).entries →
      (∀ entry ∈ entries, Agrees store entry.2) → Agrees store (.record address entries)
  | cutList (address : Address) : Agrees store (.cutList address)
  | cutRecord (address : Address) : Agrees store (.cutRecord address)

/-- The tree is an unfolding of the value. -/
structure Unfolds (store : Store) (value : Value) (tree : Unfolding) : Prop where
  root : tree.root = value
  agrees : tree.Agrees store

/-- Containers are cut off exactly where they stand beneath themselves. -/
def Exact (path : List Address) (tree : Unfolding) : Prop :=
  ∀ inner found address, Stands found inner path tree → found.root.address? = some address →
    (found.IsCut ↔ address ∈ inner)

/-- Nothing is cut off. -/
def Whole (tree : Unfolding) : Prop :=
  ∀ inner found, Stands found inner [] tree → ¬found.IsCut

end Unfolding

/-- The tree of a value inside the containers of a path, which are followed no deeper than
`depth`. -/
def Value.unfolded (store : Store) (depth : Nat) (path : List Address) (value : Value) :
    Unfolding :=
  match value with
  | number value => .constant (.number value)
  | text value => .constant (.text value)
  | boolean value => .constant (.boolean value)
  | null => .constant .null
  | list address =>
      if address ∈ path then .cutList address
      else
        match depth with
        | 0 => .cutList address
        | depth + 1 =>
            .list address ((store.items address).toList.map fun item =>
              unfolded store depth (address :: path) item)
  | record address =>
      if address ∈ path then .cutRecord address
      else
        match depth with
        | 0 => .cutRecord address
        | depth + 1 =>
            .record address ((store.fields address).entries.map fun (key, value) =>
              (key, unfolded store depth (address :: path) value))

/-- The containers that are not on a path. -/
def Store.unvisited (store : Store) (path : List Address) : Finset Address :=
  Finset.range store.size \ path.toFinset

variable {store : Store} {value : Value} {path inner : List Address} {address target : Address}
  {tree other part found : Unfolding} {depth : Nat}

/-- The depth that is enough for the containers that are not on the path leaves some for the
contents of each of them. -/
theorem Store.exists_depth (hdepth : (store.unvisited path).card ≤ depth)
    (haddress : address < store.size) (hnew : address ∉ path) :
    ∃ rest, depth = rest + 1 ∧ (store.unvisited (address :: path)).card ≤ rest := by
  have hmem : address ∈ store.unvisited path := by
    simp [unvisited, haddress, hnew]
  have herase : store.unvisited (address :: path) = (store.unvisited path).erase address := by
    unfold unvisited
    rw [List.toFinset_cons, Finset.sdiff_insert]
  have hcard := Finset.card_erase_add_one hmem
  refine ⟨depth - 1, by omega, ?_⟩
  rw [herase]
  omega

theorem Store.card_unvisited_le (store : Store) (path : List Address) :
    (store.unvisited path).card ≤ store.size := by
  have hsubset : store.unvisited path ⊆ Finset.range store.size := Finset.sdiff_subset
  have hle := Finset.card_le_card hsubset
  rwa [Finset.card_range] at hle

namespace Value

theorem text_unfolded (store : Store) (depth : Nat) (path : List Address) (value : Value) :
    (value.unfolded store depth path).text = innerText store depth path value := by
  fun_induction unfolded store depth path value with
  | case1 | case2 | case3 | case4 =>
      simp only [innerText, Unfolding.text, Literal.innerText]
  | case5 depth path address hpath =>
      rw [innerText.eq_def, Unfolding.text]
      simp only [if_pos hpath]
  | case6 path address hpath =>
      rw [innerText.eq_def, Unfolding.text]
      simp only [if_neg hpath]
  | case7 path address hpath depth ih =>
      rw [innerText, if_neg hpath, Unfolding.text, List.map_map]
      simp only [Function.comp_def, ih]
  | case8 depth path address hpath =>
      rw [innerText.eq_def, Unfolding.text]
      simp only [if_pos hpath]
  | case9 path address hpath =>
      rw [innerText.eq_def, Unfolding.text]
      simp only [if_neg hpath]
  | case10 path address hpath depth ih =>
      rw [innerText, if_neg hpath, Unfolding.text, List.map_map]
      simp only [Function.comp_def, ih]

theorem unfolds_unfolded (store : Store) (depth : Nat) (path : List Address) (value : Value) :
    (value.unfolded store depth path).Unfolds store value := by
  fun_induction unfolded store depth path value with
  | case1 | case2 | case3 | case4 => exact ⟨rfl, .constant _⟩
  | case5 | case6 => exact ⟨rfl, .cutList _⟩
  | case7 path address hpath depth ih =>
      have hroots : (Unfolding.root ∘ unfolded store depth (address :: path)) = id :=
        funext fun item => (ih item).root
      refine ⟨rfl, .list ?_ ?_⟩
      · rw [List.map_map, hroots, List.map_id]
      · simp only [List.forall_mem_map]
        exact fun item _ => (ih item).agrees
  | case8 | case9 => exact ⟨rfl, .cutRecord _⟩
  | case10 path address hpath depth ih =>
      refine ⟨rfl, .record ?_ ?_⟩
      · simp only [List.map_map, Function.comp_def, (ih _).root]
        exact List.map_id _
      · simp only [List.forall_mem_map]
        exact fun entry _ => (ih entry.2).agrees

end Value

namespace Unfolding

theorem Exact.inside (h : tree.Exact path) (haddress : tree.root.address? = some address)
    (hpart : part ∈ tree.parts) : part.Exact (address :: path) :=
  fun _ _ _ hstands => h _ _ _ (.inside haddress hpart hstands)

theorem Exact.isCut_iff (h : tree.Exact path) (haddress : tree.root.address? = some address) :
    tree.IsCut ↔ address ∈ path :=
  h _ _ _ .here haddress

theorem exact_of_parts
    (hroot : ∀ address, tree.root.address? = some address → (tree.IsCut ↔ address ∈ path))
    (hparts : ∀ address, tree.root.address? = some address →
      ∀ part ∈ tree.parts, part.Exact (address :: path)) : tree.Exact path := by
  intro inner found target hstands htarget
  cases hstands with
  | here => exact hroot target htarget
  | inside haddress hpart hrest => exact hparts _ haddress _ hpart _ _ _ hrest htarget

theorem exact_constant (literal : Literal) : (constant literal).Exact path := by
  apply exact_of_parts
  · intro address haddress
    cases literal <;> cases haddress
  · intro _ _ part hpart
    cases hpart

theorem exact_cutList (h : address ∈ path) : (cutList address).Exact path := by
  apply exact_of_parts
  · intro other hother
    cases hother
    exact iff_of_true trivial h
  · intro _ _ part hpart
    cases hpart

theorem exact_cutRecord (h : address ∈ path) : (cutRecord address).Exact path := by
  apply exact_of_parts
  · intro other hother
    cases hother
    exact iff_of_true trivial h
  · intro _ _ part hpart
    cases hpart

/-- A depth that is enough for all containers that are not on the path cuts nothing off but what
is on the path. -/
theorem exact_unfolded (hclosed : store.Closed (· < store.size))
    (hvalue : value.Within (· < store.size)) (hdepth : (store.unvisited path).card ≤ depth) :
    (value.unfolded store depth path).Exact path := by
  fun_induction Value.unfolded store depth path value with
  | case1 | case2 | case3 | case4 => exact exact_constant _
  | case5 depth path address hpath => exact exact_cutList hpath
  | case6 path address hpath =>
      obtain ⟨rest, hrest, -⟩ := store.exists_depth hdepth (hvalue address rfl) hpath
      cases hrest
  | case7 path address hpath depth ih =>
      have haddress := hvalue address rfl
      obtain ⟨rest, hrest, hdepth⟩ := store.exists_depth hdepth haddress hpath
      cases hrest
      apply exact_of_parts
      · intro other hother
        cases hother
        exact iff_of_false id hpath
      · intro other hother part hpart
        cases hother
        obtain ⟨item, hitem, rfl⟩ := List.mem_map.mp hpart
        have hcontents := Store.mem_contents_of_mem_items (Array.mem_toList_iff.mp hitem)
        exact ih item (hclosed address haddress item hcontents) hdepth
  | case8 depth path address hpath => exact exact_cutRecord hpath
  | case9 path address hpath =>
      obtain ⟨rest, hrest, -⟩ := store.exists_depth hdepth (hvalue address rfl) hpath
      cases hrest
  | case10 path address hpath depth ih =>
      have haddress := hvalue address rfl
      obtain ⟨rest, hrest, hdepth⟩ := store.exists_depth hdepth haddress hpath
      cases hrest
      apply exact_of_parts
      · intro other hother
        cases hother
        exact iff_of_false id hpath
      · intro other hother part hpart
        cases hother
        simp only [parts, List.map_map, List.mem_map] at hpart
        obtain ⟨entry, hentry, rfl⟩ := hpart
        have hcontents := Store.mem_contents_of_mem_fields hentry
        exact ih entry.2 (hclosed address haddress entry.2 hcontents) hdepth

theorem eq_of_map_eq {α β : Type} {function : α → β} {items others : List α}
    (hmap : others.map function = items.map function)
    (h : ∀ item ∈ items, ∀ other ∈ others, function other = function item → other = item) :
    others = items := by
  induction items generalizing others with
  | nil => exact List.map_eq_nil_iff.mp hmap
  | cons item items ih =>
      obtain ⟨other, others, rfl, hitem, hitems⟩ := List.map_eq_cons_iff.mp hmap
      rw [h item (by simp) other (by simp) hitem]
      congr 1
      apply ih hitems
      intro item hitem other hother
      exact h item (by simp [hitem]) other (by simp [hother])

theorem isCut_iff_of_exact (hexact : tree.Exact path) (hexact' : other.Exact path)
    (hsame : other.root = tree.root) (haddress : tree.root.address? = some address) :
    other.IsCut ↔ tree.IsCut :=
  (hexact'.isCut_iff (hsame ▸ haddress)).trans (hexact.isCut_iff haddress).symm

/-- There is only one unfolding of a value that is cut exactly where it has to be. -/
theorem eq_of_exact (hagrees : tree.Agrees store) (hexact : tree.Exact path)
    (hother : other.Agrees store) (hexact' : other.Exact path) (hsame : other.root = tree.root) :
    other = tree := by
  induction hagrees generalizing path other with
  | constant literal =>
      cases other with
      | constant literal' => cases literal <;> cases literal' <;> cases hsame <;> rfl
      | _ => cases literal <;> cases hsame
  | list hitems _ ih =>
      cases other with
      | constant literal => cases literal <;> cases hsame
      | list =>
          cases hsame
          cases hother with
          | list hothers hinner =>
              congr 1
              apply eq_of_map_eq (hothers.trans hitems.symm)
              intro item hitem other hother hroot
              exact ih item hitem (hexact.inside rfl hitem) (hinner other hother)
                (hexact'.inside rfl hother) hroot
      | cutList => exact ((isCut_iff_of_exact hexact hexact' hsame rfl).mp trivial).elim
      | _ => cases hsame
  | record hentries _ ih =>
      cases other with
      | constant literal => cases literal <;> cases hsame
      | record =>
          cases hsame
          cases hother with
          | record hothers hinner =>
              congr 1
              apply eq_of_map_eq (hothers.trans hentries.symm)
              intro entry hentry other hother hpair
              obtain ⟨hkey, hroot⟩ := Prod.mk.inj hpair
              have hvalue := ih entry hentry (hexact.inside rfl (List.mem_map_of_mem hentry))
                (hinner other hother) (hexact'.inside rfl (List.mem_map_of_mem hother)) hroot
              exact Prod.ext hkey hvalue
      | cutRecord => exact ((isCut_iff_of_exact hexact hexact' hsame rfl).mp trivial).elim
      | _ => cases hsame
  | cutList address =>
      cases other with
      | constant literal => cases literal <;> cases hsame
      | list => exact ((isCut_iff_of_exact hexact hexact' hsame rfl).mpr trivial).elim
      | cutList =>
          cases hsame
          rfl
      | _ => cases hsame
  | cutRecord address =>
      cases other with
      | constant literal => cases literal <;> cases hsame
      | record => exact ((isCut_iff_of_exact hexact hexact' hsame rfl).mpr trivial).elim
      | cutRecord =>
          cases hsame
          rfl
      | _ => cases hsame

theorem Agrees.mem_contents (h : tree.Agrees store) (haddress : tree.root.address? = some address)
    (hpart : part ∈ tree.parts) : part.Agrees store ∧ part.root ∈ store.contents address := by
  cases h with
  | constant | cutList | cutRecord => cases hpart
  | list hitems hinner =>
      cases haddress
      have hroot : part.root ∈ (store.items address).toList := by
        rw [← hitems]
        exact List.mem_map_of_mem hpart
      exact ⟨hinner part hpart, Store.mem_contents_of_mem_items (Array.mem_toList_iff.mp hroot)⟩
  | record hentries hinner =>
      cases haddress
      obtain ⟨entry, hentry, rfl⟩ := List.mem_map.mp hpart
      have hfield : (entry.1, entry.2.root) ∈ (store.fields address).entries := by
        rw [← hentries]
        exact List.mem_map_of_mem (f := fun entry => (entry.1, entry.2.root)) hentry
      exact ⟨hinner entry hentry, Store.mem_contents_of_mem_fields hfield⟩

/-- What stands in the tree of a value is reached from the value. -/
theorem Stands.reaches (h : Stands found inner path tree) (hagrees : tree.Agrees store)
    (htarget : found.root.address? = some target) : store.Reaches target tree.root := by
  induction h with
  | here => exact .here htarget
  | inside haddress hpart _ ih =>
      obtain ⟨hinner, hcontents⟩ := hagrees.mem_contents haddress hpart
      exact .inside haddress hcontents (ih hinner)

/-- The containers around a place of a tree are reached from the value, and they lead to that
place. -/
theorem Stands.reaches_around (h : Stands found inner path tree) (hagrees : tree.Agrees store)
    (htarget : found.root.address? = some target) (haddress : address ∈ inner) :
    address ∈ path ∨ store.Reaches address tree.root ∧
      ∃ item ∈ store.contents address, store.Reaches target item := by
  induction h with
  | here => exact .inl haddress
  | inside hroot hpart hrest ih =>
      obtain ⟨hinner, hcontents⟩ := hagrees.mem_contents hroot hpart
      rcases ih hinner with hmem | ⟨hreaches, hleads⟩
      · rcases List.mem_cons.mp hmem with rfl | hmem
        · exact .inr ⟨.here hroot, _, hcontents, hrest.reaches hinner htarget⟩
        · exact .inl hmem
      · exact .inr ⟨.inside hroot hcontents hreaches, hleads⟩

end Unfolding

/-- No container that the value reaches lies on a circle. -/
def Value.Acyclic (store : Store) (value : Value) : Prop :=
  ∀ address, store.Reaches address value →
    ∀ item ∈ store.contents address, ¬store.Reaches address item

namespace Unfolding

/-- Where there are no circles, no container stands beneath itself. -/
theorem Stands.not_mem_of_acyclic (h : Stands found inner [] tree) (hagrees : tree.Agrees store)
    (hacyclic : tree.root.Acyclic store) (haddress : found.root.address? = some address) :
    address ∉ inner := by
  intro hmem
  rcases h.reaches_around hagrees haddress hmem with hnil | ⟨hreaches, item, hitem, hcircle⟩
  · cases hnil
  · exact hacyclic address hreaches item hitem hcircle

theorem address?_of_isCut (h : tree.IsCut) : ∃ address, tree.root.address? = some address := by
  cases tree with
  | cutList address | cutRecord address => exact ⟨address, rfl⟩
  | _ => exact h.elim

/-- Where there are no circles, it comes to the same whether nothing is cut off or only what has to
be. -/
theorem whole_iff_exact (hagrees : tree.Agrees store) (hacyclic : tree.root.Acyclic store) :
    tree.Whole ↔ tree.Exact [] := by
  constructor
  · intro hwhole inner found address hstands haddress
    exact iff_of_false (hwhole inner found hstands)
      (hstands.not_mem_of_acyclic hagrees hacyclic haddress)
  · intro hexact inner found hstands hcut
    obtain ⟨address, haddress⟩ := address?_of_isCut hcut
    exact hstands.not_mem_of_acyclic hagrees hacyclic haddress
      ((hexact inner found address hstands haddress).mp hcut)

end Unfolding

end Bhasha
