import PrivilegeStore.Proofs.Commit.Acceptance
import PrivilegeStore.Proofs.Definition.Members
import PrivilegeStore.Proofs.Report.Rendering
import PrivilegeStore.Report.Listing

/-!
# Which snapshots can be listed

A listing reads every definition with its bits and wants texts as members, so a snapshot can be
listed exactly if each of its definitions can. Its cells hold names and members, digits and a few
texts of its own, so that no tag can begin in a cell if none can in the names and the members.
-/
namespace PrivilegeStore

namespace View

/-- The bits and the members of a definition can be read, and the members are texts. -/
structure Listable (v : View) : Prop where
  bits : ∃ bits, v.bits = .ok bits
  members : ∃ d, v.definition = .ok d ∧ ∀ m ∈ d.members, ∃ s, m = .text s

/-- Every definition of a store can be listed. -/
def AllListable (store : View) : Prop :=
  ∀ name, (store.child name).isDefinition = true → (store.child name).Listable

/-- No tag can begin in the name of a definition or in one of its members. -/
def AllUnmarked (store : View) : Prop :=
  ∀ name, (store.child name).isDefinition = true → Renderer.Unmarked name ∧
    ∀ d, (store.child name).definition = .ok d → ∀ s, .text s ∈ d.members → Renderer.Unmarked s

theorem allUnmarked_of_registry {store : View} {registry : Registry}
    (read : store.registry = .ok registry)
    (each : ∀ entry ∈ registry, Renderer.Unmarked entry.1 ∧
      ∀ s, .text s ∈ entry.2.members → Renderer.Unmarked s) : store.AllUnmarked := by
  intro name isDef
  obtain ⟨d, definition⟩ := definition_of_registry read isDef
  have member := Entries.mem_of_find? ((find?_registry read).2 ⟨isDef, definition⟩)
  refine ⟨(each _ member).1, fun d' same => ?_⟩
  rw [definition] at same
  cases same
  exact (each _ member).2

end View

namespace Report

open Renderer (Unmarked)

variable {store : View} {after : Snapshot} {settings : Settings}

theorem length_texts {names : NameSet} :
    (names.filterMap Scalar.text?).length = names.length ↔ ∀ m ∈ names, ∃ s, m = .text s := by
  rw [List.filterMap_length_eq_length]
  refine forall_congr' fun m => imp_congr_right fun _ => ?_
  cases m <;> simp [Scalar.text?]

/-- Texts can be shown, and nothing else can: other scalars have no order among texts, and a single
one is no text. -/
theorem memberCell_ok_iff {members : NameSet} :
    (∃ cell, memberCell members = .ok cell) ↔ ∀ m ∈ members, ∃ s, m = .text s := by
  cases ordered : NameSet.sorted members with
  | error fault =>
    refine iff_of_false ?_ fun texts => ?_
    · simp [memberCell, ordered]
    · obtain ⟨names, rfl⟩ := NameSet.texts_of_forall texts
      rw [NameSet.sorted_map_text] at ordered
      cases ordered
  | ok inOrder =>
    have kept : (∀ m ∈ inOrder, ∃ s, m = .text s) ↔ ∀ m ∈ members, ∃ s, m = .text s :=
      forall_congr' fun m => imp_congr_left (NameSet.mem_sorted ordered)
    rw [← kept, ← length_texts, memberCell, ordered]
    simp only
    split
    next texts => exact iff_of_true ⟨_, rfl⟩ texts
    next other => exact iff_of_false (by simp) other

theorem row_ok_iff {name : String} {d : Definition} :
    (∃ r, row store name d = .ok r) ↔
      (∃ bits, (store.child name).bits = .ok bits) ∧ ∀ m ∈ d.members, ∃ s, m = .text s := by
  rw [← memberCell_ok_iff, row]
  cases (store.child name).bits <;> cases memberCell d.members <;> simp

/-- There are rows for definitions exactly if there is a row for each of them. -/
theorem rowsFor_ok_iff {registry : Registry} :
    (∃ rows, rowsFor store registry = .ok rows) ↔
      ∀ entry ∈ registry, ∃ r, row store entry.1 entry.2 = .ok r := by
  induction registry with
  | nil => simp [rowsFor]
  | cons entry rest ih =>
    rw [List.forall_mem_cons, ← ih, rowsFor]
    cases row store entry.1 entry.2 <;> cases rowsFor store rest <;> simp

theorem rows_ok_iff {registry : Registry} (read : store.registry = .ok registry) :
    (∃ shown, rows store registry = .ok shown) ↔ store.AllListable := by
  simp only [rows, rowsFor_ok_iff, mem_sortBy, row_ok_iff]
  constructor
  · intro each name isDef
    obtain ⟨d, definition⟩ := View.definition_of_registry read isDef
    have member := Entries.mem_of_find? ((View.find?_registry read).2 ⟨isDef, definition⟩)
    exact ⟨(each _ member).1, d, definition, (each _ member).2⟩
  · intro all entry member
    obtain ⟨isDef, definition⟩ := View.mem_definitionsAmong read member
    obtain ⟨bits, d, same, texts⟩ := all entry.1 isDef
    rw [definition] at same
    cases same
    exact ⟨bits, texts⟩

theorem listing_eq_ok {shown : List Row} : listing after settings = .ok shown ↔
    ∃ registry, (after.privileges settings).registry = .ok registry ∧
      rows (after.privileges settings) registry = .ok shown := by
  rw [listing]
  cases (after.privileges settings).registry <;> simp

/-- A snapshot can be listed exactly if each of its definitions can. -/
theorem listing_ok_iff :
    (∃ shown, listing after settings = .ok shown) ↔ (after.privileges settings).AllListable := by
  rw [listing]
  cases read : (after.privileges settings).registry with
  | ok registry => exact rows_ok_iff read
  | error fault =>
    refine iff_of_false (by simp) fun all => ?_
    have readable (name : String) (isDef) :
        ∃ d, ((after.privileges settings).child name).definition = .ok d :=
      (all name isDef).members.imp fun _ members => members.1
    obtain ⟨registry, there⟩ := View.definitionsAmong_ok fun name _ => readable name
    rw [View.registry, there] at read
    cases read

theorem unmarked_hex (bits : Bits) : Unmarked bits.hex := by
  have digits : Unmarked (String.ofList (Nat.toDigits 16 bits.value)) := by
    rw [Unmarked, String.toList_ofList]
    exact Renderer.bracket_notMem_toDigits (by decide) bits.value
  exact Unmarked.append (by decide) digits

theorem unmarked_memberCell {members : NameSet} {cell : String}
    (unmarked : ∀ s, .text s ∈ members → Unmarked s) (shown : memberCell members = .ok cell) :
    Unmarked cell := by
  cases ordered : NameSet.sorted members with
  | error fault => simp [memberCell, ordered] at shown
  | ok inOrder =>
    have each : ∀ s ∈ inOrder.filterMap Scalar.text?, Unmarked s := by
      intro s member
      obtain ⟨m, member, isText⟩ := List.mem_filterMap.1 member
      cases m <;> cases isText
      exact unmarked s ((NameSet.mem_sorted ordered).1 member)
    have text : Unmarked (joined (inOrder.filterMap Scalar.text?)) := by
      rw [joined]
      split
      · decide
      · exact Renderer.unmarked_intercalate (by decide) each
    rw [memberCell, ordered] at shown
    simp only at shown
    split at shown
    · cases shown
      exact text
    · cases shown

theorem unmarked_row {name : String} {d : Definition} {r : Row} (unmarked : Unmarked name)
    (unmarked' : ∀ s, .text s ∈ d.members → Unmarked s) (shown : row store name d = .ok r) :
    ∀ cell ∈ r.cells, Unmarked cell := by
  rw [row] at shown
  cases stored : (store.child name).bits with
  | error fault => simp [stored] at shown
  | ok bits =>
    cases written : memberCell d.members with
    | error fault => simp [stored, written] at shown
    | ok members =>
      simp only [stored, written, Except.ok.injEq] at shown
      subst shown
      have answer : Unmarked (if d.isAbstract then "yes" else dash) := by
        split <;> decide
      simp only [Row.cells, List.forall_mem_cons]
      exact ⟨unmarked, unmarked_hex bits, unmarked_memberCell unmarked' written, answer, by simp⟩

/-- Every row is the row of a definition. -/
theorem exists_of_mem_rowsFor {registry : Registry} {shown : List Row}
    (listed : rowsFor store registry = .ok shown) {r : Row} (member : r ∈ shown) :
    ∃ entry ∈ registry, row store entry.1 entry.2 = .ok r := by
  induction registry generalizing shown with
  | nil =>
    cases listed
    cases member
  | cons entry rest ih =>
    rw [rowsFor] at listed
    cases first : row store entry.1 entry.2 with
    | error fault => simp [first] at listed
    | ok head =>
      cases later : rowsFor store rest with
      | error fault => simp [first, later] at listed
      | ok others =>
        simp only [first, later, Except.ok.injEq] at listed
        subst listed
        rcases List.mem_cons.1 member with rfl | member
        · exact ⟨entry, List.mem_cons_self, first⟩
        · obtain ⟨entry', inRest, found⟩ := ih later member
          exact ⟨entry', List.mem_cons_of_mem _ inRest, found⟩

theorem unmarked_listing {shown : List Row} (unmarked : (after.privileges settings).AllUnmarked)
    (listed : listing after settings = .ok shown) :
    ∀ cells ∈ shown.map Row.cells, ∀ cell ∈ cells, Unmarked cell := by
  rw [listing] at listed
  cases read : (after.view settings.privilegesPath).registry with
  | error fault => simp [read] at listed
  | ok registry =>
    simp only [read] at listed
    intro cells member
    obtain ⟨r, inShown, rfl⟩ := List.mem_map.1 member
    obtain ⟨entry, among, found⟩ := exists_of_mem_rowsFor listed inShown
    obtain ⟨isDef, definition⟩ := View.mem_definitionsAmong read (mem_sortBy.1 among)
    obtain ⟨name, members⟩ := unmarked entry.1 isDef
    exact unmarked_row name (members entry.2 definition) found

end Report

end PrivilegeStore
