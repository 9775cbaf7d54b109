import Mathlib.Data.List.Sort
import PrivilegeStore.Sorting

/-!
# What sorting forgets

Items that an order tells apart stand in one way only when they are in order. So a sorted list does
not tell how its items were given, and names that are listed once and in order are determined by
which names they are. The laws of sorting itself are those of `List.insertionSort`.
-/
namespace PrivilegeStore

variable {α : Type} {le : α → α → Bool}

theorem sortBy_eq_insertionSort (xs : List α) :
    sortBy le xs = xs.insertionSort fun a b => le a b := by
  have inserted (x : α) (ys : List α) :
      insertBy le x ys = ys.orderedInsert (fun a b => le a b) x := by
    induction ys with
    | nil => rfl
    | cons y ys ih => rw [insertBy, List.orderedInsert_cons, ih]
  induction xs with
  | nil => rfl
  | cons x xs ih => rw [sortBy, List.insertionSort_cons, inserted, ih]

@[simp] theorem mem_sortBy {x : α} {xs : List α} : x ∈ sortBy le xs ↔ x ∈ xs := by
  rw [sortBy_eq_insertionSort, List.mem_insertionSort]

@[simp] theorem mem_sortNames {name : String} {names : List String} :
    name ∈ sortNames names ↔ name ∈ names := mem_sortBy

theorem nodup_sortNames {names : List String} : (sortNames names).Nodup ↔ names.Nodup := by
  rw [sortNames, sortBy_eq_insertionSort]
  exact (List.perm_insertionSort _ names).nodup_iff

/-- Items may be sorted by an image that decides their order. -/
theorem sortBy_map {β : Type} {f : α → β} {le' : β → β → Bool}
    (agree : ∀ a b, le' (f a) (f b) = le a b) (xs : List α) :
    sortBy le' (xs.map f) = (sortBy le xs).map f := by
  rw [sortBy_eq_insertionSort, sortBy_eq_insertionSort]
  exact (List.map_insertionSort _ _ f xs fun a _ b _ => by rw [agree]).symm

/-- Names in order. -/
abbrev InOrder (names : List String) : Prop := names.Pairwise (fun a b => nameLe a b)

theorem sortNames_pairwise (names : List String) : InOrder (sortNames names) := by
  have total : Std.Total fun a b : String => nameLe a b = true :=
    ⟨fun a b => by simpa [nameLe] using String.le_total a b⟩
  have trans : IsTrans String fun a b => nameLe a b = true :=
    ⟨fun a b c => by simpa [nameLe] using String.le_trans⟩
  rw [sortNames, sortBy_eq_insertionSort]
  exact List.pairwise_insertionSort _ names

theorem nameLe_antisymm (a b : String) (ab : nameLe a b) (ba : nameLe b a) : a = b := by
  simp only [nameLe, decide_eq_true_eq] at ab ba
  exact String.le_antisymm ab ba

/-- The same names, each listed once and in order, are the same list. -/
theorem names_ext {names others : List String} (ordered : InOrder names)
    (ordered' : InOrder others) (once : names.Nodup) (once' : others.Nodup)
    (same : ∀ name, name ∈ names ↔ name ∈ others) : names = others :=
  ((List.perm_ext_iff_of_nodup once once').2 same).eq_of_pairwise
    (fun a b _ _ => nameLe_antisymm a b) ordered ordered'

/-- The same names, each listed once, are sorted to the same list. -/
theorem sortNames_ext {names others : List String} (once : names.Nodup) (once' : others.Nodup)
    (same : ∀ name, name ∈ names ↔ name ∈ others) : sortNames names = sortNames others :=
  names_ext (sortNames_pairwise names) (sortNames_pairwise others)
    (nodup_sortNames.2 once) (nodup_sortNames.2 once')
    fun name => by rw [mem_sortNames, mem_sortNames, same name]

end PrivilegeStore
