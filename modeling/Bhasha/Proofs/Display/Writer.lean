import Bhasha.Proofs.Display.Unfolding
import Mathlib.Logic.Relation

/-!
# Writing a value piece by piece

A value is written from left to right, with a single path that all containers share: a container
is put on it when its text begins and taken off it before its text ends.  Whatever the store looks
like, the writer comes to the end of the value, the path is then what it was before, and what has
been written is the text of the tree of the value.
-/

namespace Bhasha

/-- What is still to be written: characters, a value, or nothing but that the innermost container
is left. -/
inductive Pending where
  | chars (text : List Char)
  | value (nested : Bool) (value : Value)
  | leave

/-- What has been written, the containers that have been entered and not yet left, the innermost
one first, and what is still to be written. -/
structure Writer where
  written : List Char
  path : List Address
  pending : List Pending

namespace Writer

def separated (parts : List (List Pending)) : List Pending :=
  [.chars [',', ' ']].intercalate parts

/-- Enters a container and writes its opening mark.  Its contents and its closing mark come before
the rest. -/
def enter (writer : Writer) (address : Address) (opening closing : Char)
    (parts : List (List Pending)) (rest : List Pending) : Writer where
  written := writer.written ++ [opening]
  path := address :: writer.path
  pending := separated parts ++ .leave :: .chars [closing] :: rest

/-- One step of writing; none if nothing is left to be written. -/
def step (store : Store) (writer : Writer) : Option Writer :=
  match writer.pending with
  | [] => none
  | .chars text :: rest => some ⟨writer.written ++ text, writer.path, rest⟩
  | .leave :: rest => some ⟨writer.written, writer.path.tail, rest⟩
  | .value nested value :: rest =>
      match value with
      | .number value => some ⟨writer.written ++ Number.digits value, writer.path, rest⟩
      | .text value =>
          let text := if nested then Text.quoted value.toList else value.toList
          some ⟨writer.written ++ text, writer.path, rest⟩
      | .boolean value => some ⟨writer.written ++ Value.booleanText value, writer.path, rest⟩
      | .null => some ⟨writer.written ++ Value.nullText, writer.path, rest⟩
      | .list address =>
          if address ∈ writer.path then
            some ⟨writer.written ++ Value.listEllipsis, writer.path, rest⟩
          else
            let parts := (store.items address).toList.map fun item => [Pending.value true item]
            some (writer.enter address '[' ']' parts rest)
      | .record address =>
          if address ∈ writer.path then
            some ⟨writer.written ++ Value.recordEllipsis, writer.path, rest⟩
          else
            let parts := (store.fields address).entries.map fun entry =>
              [Pending.chars (entry.1.toList ++ [':', ' ']), .value true entry.2]
            some (writer.enter address '\x7b' '\x7d' parts rest)

/-- Steps lead from one writer to another. -/
abbrev Steps (store : Store) : Writer → Writer → Prop :=
  Relation.ReflTransGen fun writer next => writer.step store = some next

/-- A value is to be written by itself. -/
def start (value : Value) : Writer :=
  ⟨[], [], [.value false value]⟩

open Relation

variable {store : Store} {path : List Address} {value : Value} {depth : Nat}

theorem steps_chars (store : Store) (text written : List Char) (path : List Address)
    (rest : List Pending) :
    Steps store ⟨written, path, .chars text :: rest⟩ ⟨written ++ text, path, rest⟩ :=
  .single rfl

/-- Parts that can be written one by one are written with commas between them. -/
theorem steps_separated {α : Type} {pending : α → List Pending} {text : α → List Char}
    {parts : List α}
    (h : ∀ part ∈ parts, ∀ written rest, Steps store ⟨written, path, pending part ++ rest⟩
      ⟨written ++ text part, path, rest⟩)
    (written : List Char) (rest : List Pending) :
    Steps store ⟨written, path, separated (parts.map pending) ++ rest⟩
      ⟨written ++ Value.commaSeparated (parts.map text), path, rest⟩ := by
  induction parts generalizing written with
  | nil =>
      change Steps store ⟨written, path, rest⟩ ⟨written ++ [], path, rest⟩
      rw [List.append_nil]
  | cons part parts ih =>
      have hpart := h part (by simp) written
      cases parts with
      | nil =>
          have hlast := hpart rest
          simpa [separated, Value.commaSeparated] using hlast
      | cons next parts =>
          have hlater := ih (fun other hother => h other (by simp [hother]))
            (written ++ text part ++ [',', ' '])
          have hcomma := steps_chars store [',', ' '] (written ++ text part) path
            (separated ((next :: parts).map pending) ++ rest)
          have hall := ((hpart _).trans hcomma).trans hlater
          simpa [separated, Value.commaSeparated] using hall

/-- A container whose contents can be written is written between its marks, and then it has been
left again. -/
theorem steps_enter {α : Type} {pending : α → List Pending} {text : α → List Char}
    {parts : List α} {address : Address}
    (h : ∀ part ∈ parts, ∀ written rest,
      Steps store ⟨written, address :: path, pending part ++ rest⟩
        ⟨written ++ text part, address :: path, rest⟩)
    (opening closing : Char) (written : List Char) (rest : List Pending) :
    Steps store
      (enter ⟨written, path, rest⟩ address opening closing (parts.map pending) rest)
      ⟨written ++ (opening :: Value.commaSeparated (parts.map text) ++ [closing]), path, rest⟩ := by
  have hparts := steps_separated h (written ++ [opening]) (.leave :: .chars [closing] :: rest)
  have hleave : Steps store
      ⟨written ++ [opening] ++ Value.commaSeparated (parts.map text), address :: path,
        .leave :: .chars [closing] :: rest⟩
      ⟨written ++ [opening] ++ Value.commaSeparated (parts.map text), path,
        .chars [closing] :: rest⟩ :=
    .single rfl
  have hall := (hparts.trans hleave).trans (steps_chars store _ _ _ _)
  simpa [enter] using hall

/-- The writer comes to the end of a value, with the text of the tree of the value. -/
theorem steps_unfolded (hclosed : store.Closed (· < store.size))
    (hvalue : value.Within (· < store.size)) (hdepth : (store.unvisited path).card ≤ depth)
    {nested : Bool} (hnested : nested = true ∨ value.type ≠ .text) (written : List Char)
    (rest : List Pending) :
    Steps store ⟨written, path, .value nested value :: rest⟩
      ⟨written ++ (value.unfolded store depth path).text, path, rest⟩ := by
  fun_induction Value.unfolded store depth path value generalizing nested written rest with
  | case1 | case3 | case4 =>
      rw [Unfolding.text]
      exact .single rfl
  | case2 =>
      rcases hnested with rfl | htype
      · rw [Unfolding.text]
        exact .single rfl
      · exact absurd rfl htype
  | case5 depth path address hpath =>
      rw [Unfolding.text]
      exact .single (if_pos hpath)
  | case6 path address hpath =>
      obtain ⟨_, hzero, -⟩ := store.exists_depth hdepth (hvalue address rfl) hpath
      cases hzero
  | case7 path address hpath depth ih =>
      have haddress := hvalue address rfl
      obtain ⟨_, hsucc, hdepth⟩ := store.exists_depth hdepth haddress hpath
      cases hsucc
      have hitems : ∀ item ∈ (store.items address).toList, ∀ written rest,
          Steps store ⟨written, address :: path, [.value true item] ++ rest⟩
            ⟨written ++ (item.unfolded store depth (address :: path)).text, address :: path,
              rest⟩ := by
        intro item hitem
        have hcontents := Store.mem_contents_of_mem_items (Array.mem_toList_iff.mp hitem)
        exact ih item (hclosed address haddress item hcontents) hdepth (.inl rfl)
      have hopened := steps_enter hitems '[' ']' written rest
      rw [Unfolding.text, List.map_map]
      exact .head (if_neg hpath) hopened
  | case8 depth path address hpath =>
      rw [Unfolding.text]
      exact .single (if_pos hpath)
  | case9 path address hpath =>
      obtain ⟨_, hzero, -⟩ := store.exists_depth hdepth (hvalue address rfl) hpath
      cases hzero
  | case10 path address hpath depth ih =>
      have haddress := hvalue address rfl
      obtain ⟨_, hsucc, hdepth⟩ := store.exists_depth hdepth haddress hpath
      cases hsucc
      have hentries : ∀ entry ∈ (store.fields address).entries, ∀ written rest,
          Steps store
            ⟨written, address :: path,
              [.chars (entry.1.toList ++ [':', ' ']), .value true entry.2] ++ rest⟩
            ⟨written ++ (entry.1.toList ++ ':' :: ' ' ::
              (entry.2.unfolded store depth (address :: path)).text), address :: path,
              rest⟩ := by
        intro entry hentry written rest
        have hcontents := Store.mem_contents_of_mem_fields hentry
        have hkey := steps_chars store (entry.1.toList ++ [':', ' ']) written (address :: path)
          (.value true entry.2 :: rest)
        have hentryValue := ih entry.2 (hclosed address haddress entry.2 hcontents) hdepth
          (.inl rfl) (written ++ (entry.1.toList ++ [':', ' '])) rest
        simpa using hkey.trans hentryValue
      have hopened := steps_enter hentries '\x7b' '\x7d' written rest
      rw [Unfolding.text, List.map_map]
      exact .head (if_neg hpath) hopened

end Writer

theorem Unfolding.shown_eq {tree : Unfolding} (h : tree.root.type ≠ .text) :
    tree.shown = String.ofList tree.text := by
  cases tree with
  | constant literal =>
      cases literal with
      | text value => exact absurd rfl h
      | _ => rfl
  | _ => rfl

namespace Value

open Writer

variable {store : Store} {value : Value}

theorem display_eq (store : Store) (h : value.type ≠ .text) :
    value.display store = String.ofList (innerText store store.size [] value) := by
  cases value with
  | text value => exact absurd rfl h
  | _ => rfl

theorem shown_unfolded (store : Store) (value : Value) :
    (value.unfolded store store.size []).shown = value.display store := by
  by_cases htype : value.type = .text
  · cases value with
    | text value =>
        rw [unfolded]
        rfl
    | _ => cases htype
  · have hroot := (unfolds_unfolded store store.size [] value).root
    rw [Unfolding.shown_eq (by rwa [hroot]), text_unfolded, display_eq store htype]

theorem steps_start (hclosed : store.Closed (· < store.size))
    (hvalue : value.Within (· < store.size)) :
    Steps store (start value) ⟨(value.display store).toList, [], []⟩ := by
  by_cases htype : value.type = .text
  · cases value with
    | text value => exact .single rfl
    | _ => cases htype
  · have hsteps : Steps store (start value) _ :=
      steps_unfolded hclosed hvalue (store.card_unvisited_le []) (.inr htype) [] []
    rwa [text_unfolded, List.nil_append, ← String.toList_ofList (l := innerText _ _ _ _),
      ← display_eq store htype] at hsteps

/-- In every store that holds no address that is not taken, a value comes to the end of its text
whatever the path of the containers around it is, and leaves the path as it was. -/
theorem display_unfolds (hclosed : store.Closed (· < store.size))
    (hvalue : value.Within (· < store.size)) :
    (∀ (path : List Address) (written : List Char) (pending : List Pending),
      ∃ tree : Unfolding, tree.Unfolds store value ∧ tree.Exact path ∧
        Steps store ⟨written, path, .value true value :: pending⟩
          ⟨written ++ tree.text, path, pending⟩) ∧
    Steps store (start value) ⟨(value.display store).toList, [], []⟩ ∧
    (∃ tree : Unfolding, tree.Unfolds store value ∧ tree.Exact [] ∧
      tree.shown = value.display store ∧
      ∀ other : Unfolding, other.Unfolds store value → other.Exact [] → other = tree) ∧
    (value.Acyclic store → ∃ tree : Unfolding, tree.Unfolds store value ∧ tree.Whole ∧
      tree.shown = value.display store ∧
      ∀ other : Unfolding, other.Unfolds store value → other.Whole → other = tree) := by
  have hdepth := store.card_unvisited_le
  have hunique {path : List Address} {tree other : Unfolding} (htree : tree.Unfolds store value)
      (hother : other.Unfolds store value) (hexact : tree.Exact path) (hexact' : other.Exact path) :
      other = tree :=
    Unfolding.eq_of_exact htree.agrees hexact hother.agrees hexact'
      (hother.root.trans htree.root.symm)
  have hunfolds := unfolds_unfolded store store.size [] value
  have hexact := Unfolding.exact_unfolded hclosed hvalue (hdepth [])
  refine ⟨?_, steps_start hclosed hvalue, ?_, ?_⟩
  · intro path written pending
    exact ⟨_, unfolds_unfolded store store.size path value,
      Unfolding.exact_unfolded hclosed hvalue (hdepth path),
      steps_unfolded hclosed hvalue (hdepth path) (.inl rfl) written pending⟩
  · exact ⟨_, hunfolds, hexact, shown_unfolded store value,
      fun other hother hexact' => hunique hunfolds hother hexact hexact'⟩
  · intro hacyclic
    have hwhole {tree : Unfolding} (htree : tree.Unfolds store value) :
        tree.Whole ↔ tree.Exact [] :=
      Unfolding.whole_iff_exact htree.agrees (htree.root ▸ hacyclic)
    exact ⟨_, hunfolds, (hwhole hunfolds).mpr hexact, shown_unfolded store value,
      fun other hother hwhole' => hunique hunfolds hother hexact ((hwhole hother).mp hwhole')⟩

/-- A list holds itself and a record, and the record holds another list twice. -/
theorem display_unfolds_of_shared_list :
    let store : Store := ⟨#[.list #[.boolean true, .list 0, .record 1],
      .record ⟨[("x", .list 2), ("y", .list 2)]⟩, .list #[.text "a"]]⟩
    store.Closed (· < store.size) ∧
      Steps store (start (.list 0))
        ⟨"[true, [...], \x7bx: [\"a\"], y: [\"a\"]\x7d]".toList, [], []⟩ ∧
      (record 1).Acyclic store ∧
      ∃ tree : Unfolding, tree.Unfolds store (.record 1) ∧ tree.Whole ∧
        tree.shown = "\x7bx: [\"a\"], y: [\"a\"]\x7d" := by
  intro store
  have hclosed : store.Closed (· < store.size) := by
    intro address haddress item hitem target htarget
    have hall : ∀ other : Nat, other < 3 → ∀ item ∈ store.contents other,
        ∀ target ∈ item.address?, target < 3 := by
      decide +kernel
    exact hall address haddress item hitem target htarget
  have hacyclic : (record 1).Acyclic store := by
    intro address haddress item hitem hcircle
    have hall : ∀ other : Nat, other < 3 → displayReads store other (record 1) = true →
        ∀ item ∈ store.contents other, item.displayReads store other = false := by
      decide +kernel
    have hlt : address < 3 := Store.address_lt_size hitem
    have hnone := hall address hlt ((displayReads_iff _ _ _).mpr haddress) item hitem
    rw [(displayReads_iff _ _ _).mpr hcircle] at hnone
    cases hnone
  have hlist : (list 0).Within (· < store.size) := by
    intro address haddress
    cases haddress
    decide
  have hrecord : (record 1).Within (· < store.size) := by
    intro address haddress
    cases haddress
    decide
  refine ⟨hclosed, ?_, hacyclic, ?_⟩
  · have hdisplay : (list 0).display store =
        "[true, [...], \x7bx: [\"a\"], y: [\"a\"]\x7d]" := by
      decide +kernel
    rw [← hdisplay]
    exact (display_unfolds hclosed hlist).2.1
  · have hdisplay : (record 1).display store = "\x7bx: [\"a\"], y: [\"a\"]\x7d" := by
      decide +kernel
    rw [← hdisplay]
    obtain ⟨-, -, -, hwhole⟩ := display_unfolds hclosed hrecord
    obtain ⟨tree, htree, huncut, hshown, -⟩ := hwhole hacyclic
    exact ⟨tree, htree, huncut, hshown⟩

end Value

end Bhasha
