import Mathlib.Data.String.Basic
import PrivilegeStore.Proofs.Value.Sameness
import PrivilegeStore.Snapshot

/-!
# Nodes are told apart by lookups

The form of an object or of a node lists its entries by increasing name, each name once. So forms
are equal as soon as the same is found under every name, and nodes are the same that have the same
properties and children, in whatever order they store them.
-/
namespace PrivilegeStore

namespace Entries

variable {α : Type}

/-- In entries that are each named once, the same is found in whatever order they are stored. -/
theorem find?_of_perm {entries others : Entries α} (perm : entries.Perm others)
    (once : (entries.map Prod.fst).Nodup) (name : String) :
    find? name entries = find? name others := by
  induction perm with
  | nil => rfl
  | cons entry _ ih =>
    rw [List.map_cons, List.nodup_cons] at once
    rw [find?, find?, ih once.2]
  | swap first second rest =>
    have apart : second.1 ≠ first.1 := by
      simp only [List.map_cons, List.nodup_cons, List.mem_cons, not_or] at once
      exact once.1.1
    simp only [find?]
    split
    next here => rw [if_neg fun there => apart (here.trans there.symm)]
    next => rfl
  | trans perm _ ih later => exact (ih once).trans (later ((perm.map Prod.fst).nodup_iff.1 once))

end Entries

namespace Form

/-- Entries by increasing name, each name once. -/
def Increasing (entries : List (String × Form)) : Prop := entries.Pairwise fun a b => a.1 < b.1

theorem mem_insertEntry {name : String} {form : Form} {entries : List (String × Form)}
    {entry : String × Form} (member : entry ∈ insertEntry name form entries) :
    entry = (name, form) ∨ entry ∈ entries := by
  induction entries with
  | nil => simpa [insertEntry] using member
  | cons first rest ih =>
    obtain ⟨n, f⟩ := first
    rw [insertEntry] at member
    split at member
    · exact List.mem_cons.1 member
    · split at member
      · rcases List.mem_cons.1 member with here | there
        · exact .inl here
        · exact .inr (List.mem_cons_of_mem _ there)
      · rcases List.mem_cons.1 member with rfl | there
        · exact .inr List.mem_cons_self
        · exact (ih there).imp_right (List.mem_cons_of_mem _)

theorem increasing_insertEntry {entries : List (String × Form)} (increasing : Increasing entries)
    (name : String) (form : Form) : Increasing (insertEntry name form entries) := by
  induction entries with
  | nil => exact List.pairwise_singleton _ _
  | cons first rest ih =>
    obtain ⟨n, f⟩ := first
    obtain ⟨above, later⟩ := List.pairwise_cons.1 increasing
    rw [insertEntry]
    split
    next before =>
      refine List.pairwise_cons.2 ⟨fun entry member => ?_, increasing⟩
      rcases List.mem_cons.1 member with rfl | there
      · exact before
      · exact before.trans (above entry there)
    next notBefore =>
      split
      next same =>
        refine List.pairwise_cons.2 ⟨fun entry member => ?_, later⟩
        rw [same]
        exact above entry member
      next other =>
        refine List.pairwise_cons.2 ⟨fun entry member => ?_, ih later⟩
        rcases mem_insertEntry member with rfl | there
        · exact lt_of_le_of_ne (not_lt.1 notBefore) (Ne.symm other)
        · exact above entry there

/-- Where names increase, an entry is the one that is found under its name. -/
theorem find?_of_mem {entries : List (String × Form)} (increasing : Increasing entries)
    {entry : String × Form} (member : entry ∈ entries) :
    Entries.find? entry.1 entries = some entry.2 := by
  induction entries with
  | nil => exact absurd member List.not_mem_nil
  | cons first rest ih =>
    obtain ⟨above, later⟩ := List.pairwise_cons.1 increasing
    rw [Entries.find?]
    rcases List.mem_cons.1 member with rfl | there
    · rw [if_pos rfl]
    · rw [if_neg (ne_of_lt (above entry there)), ih later there]

/-- Entries by increasing name are equal if the same is found in them. -/
theorem increasing_ext {entries others : List (String × Form)} (left : Increasing entries)
    (right : Increasing others)
    (same : ∀ name, Entries.find? name entries = Entries.find? name others) : entries = others := by
  have once {list : List (String × Form)} (increasing : Increasing list) : list.Nodup :=
    increasing.imp fun before equal => absurd (congrArg Prod.fst equal) (ne_of_lt before)
  have perm : entries.Perm others := by
    refine (List.perm_ext_iff_of_nodup (once left) (once right)).2 fun entry => ?_
    constructor <;> intro member
    · exact Entries.mem_of_find? ((same entry.1).symm.trans (find?_of_mem left member))
    · exact Entries.mem_of_find? ((same entry.1).trans (find?_of_mem right member))
  exact perm.eq_of_pairwise (fun a b _ _ before after => absurd before (lt_asymm after)) left right

end Form

theorem Value.increasing_formEntries (entries : Entries Value) :
    Form.Increasing (formEntries entries) := by
  induction entries with
  | nil => exact .nil
  | cons entry rest ih => exact Form.increasing_insertEntry ih _ _

namespace Node

theorem increasing_formChildren (children : Entries Node) :
    Form.Increasing (formChildren children) := by
  induction children with
  | nil => exact .nil
  | cons entry rest ih => exact Form.increasing_insertEntry ih _ _

/-- Nodes are the same that have the same properties and the same children. -/
theorem form_ext {a b : Node}
    (properties : ∀ name, (a.property? name).map Value.form = (b.property? name).map Value.form)
    (children : ∀ name, (a.child? name).map form = (b.child? name).map form) : a.form = b.form := by
  obtain ⟨ps, cs⟩ := a
  obtain ⟨qs, ds⟩ := b
  have entries : Value.formEntries ps = Value.formEntries qs := by
    refine Form.increasing_ext (Value.increasing_formEntries ps) (Value.increasing_formEntries qs)
      fun name => ?_
    rw [Value.find?_formEntries, Value.find?_formEntries]
    exact properties name
  have below : formChildren cs = formChildren ds := by
    refine Form.increasing_ext (increasing_formChildren cs) (increasing_formChildren ds)
      fun name => ?_
    rw [find?_formChildren, find?_formChildren]
    exact children name
  rw [form, form, entries, below]

/-- Nodes are the same whose properties and children, each named once, are stored in other order.
Children may differ in the same way below. -/
theorem form_of_perm {a b : Node} (once : (a.properties.map Prod.fst).Nodup)
    (once' : (a.children.map Prod.fst).Nodup) (properties : a.properties.Perm b.properties)
    (children : (Entries.mapValues form a.children).Perm (Entries.mapValues form b.children)) :
    a.form = b.form := by
  have names : (Entries.mapValues form a.children).map Prod.fst = a.children.map Prod.fst := by
    rw [Entries.mapValues, List.map_map]
    rfl
  rw [← names] at once'
  refine form_ext (fun name => ?_) fun name => ?_
  · rw [property?, property?, Entries.find?_of_perm properties once]
  · rw [child?, child?, ← Entries.find?_mapValues, ← Entries.find?_mapValues,
      Entries.find?_of_perm children once']

/-- Element names lead to the same nodes in the same trees. -/
theorem descend_form_congr {a b : Node} (same : a.form = b.form) (names : List String) :
    (a.descend names).map form = (b.descend names).map form := by
  induction names generalizing a b with
  | nil => rw [descend, descend, Option.map_some, Option.map_some, same]
  | cons name rest ih =>
    rw [descend, descend]
    rcases cases_of_map_eq (child?_form_congr same name) with
      ⟨left, right⟩ | ⟨x, y, left, right, equal⟩
    · rw [left, right]
    · rw [left, right]
      exact ih equal

end Node

namespace View

variable {v w : View} (same : v.state.map Node.form = w.state.map Node.form) (name : String)

include same

theorem property?_form_congr :
    (v.property? name).map Value.form = (w.property? name).map Value.form := by
  rw [property?, property?]
  rcases cases_of_map_eq same with ⟨left, right⟩ | ⟨a, b, left, right, equal⟩
  · rw [left, right]
  · rw [left, right]
    exact Node.property?_form_congr equal name

theorem child_form_congr :
    (v.child name).state.map Node.form = (w.child name).state.map Node.form := by
  rw [child, below, child, below]
  rcases cases_of_map_eq same with ⟨left, right⟩ | ⟨a, b, left, right, equal⟩
  · rw [left, right]
  · rw [left, right]
    exact Node.child?_form_congr equal name

end View

end PrivilegeStore
