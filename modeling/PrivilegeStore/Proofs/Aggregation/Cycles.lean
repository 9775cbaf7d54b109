import Mathlib.Data.List.Chain
import PrivilegeStore.Proofs.Aggregation.Extension
import PrivilegeStore.Proofs.Aggregation.Termination

/-!
# Cycles

A path spells out how one name is reached from another. The cycle detector decides whether there is
one, on any graph. A definition none of whose members would close a cycle can be put into a graph
without cycles, and it has none afterwards either, whether the name of the definition is new or had
other members before.
-/
namespace PrivilegeStore

namespace Aggregation

/-- The first name has the second as a declared member. -/
def Declares (registry : Registry) (a b : Scalar) : Prop :=
  NameSet.contains (registry.membersOf a) b = true

/-- A way along declared members, by way of registered names. -/
structure Path (registry : Registry) (source : Scalar) (between : List Scalar) (target : Scalar) :
    Prop where
  edges : List.IsChain (Declares registry) (source :: (between ++ [target]))
  registered : ∀ name ∈ between, registry.Registered name

variable {registry : Registry} {a b c : Scalar} {between : List Scalar}

theorem Declares.registered (declared : Declares registry a b) : registry.Registered a := by
  obtain ⟨m, member, -⟩ := NameSet.contains_iff.1 declared
  exact registered_of_mem member

namespace Path

theorem edge (declared : Declares registry a b) : Path registry a [] b where
  edges := List.isChain_pair.2 declared
  registered := fun _ member => absurd member List.not_mem_nil

/-- A path goes on with a declared member of its target. -/
theorem push (path : Path registry a between b) (declared : Declares registry b c) :
    Path registry a (between ++ [b]) c where
  edges := by
    rw [List.append_assoc]
    exact List.isChain_cons_split.2 ⟨path.edges, List.isChain_pair.2 declared⟩
  registered := by
    intro name member
    rcases List.mem_append.1 member with before | last
    · exact path.registered name before
    · rw [List.mem_singleton.1 last]
      exact declared.registered

/-- A path starts with a declared member, which reaches its target. -/
theorem first (path : Path registry a between b) :
    ∃ m, Declares registry a m ∧ Reaches registry.membersOf m b := by
  obtain ⟨edges, registered⟩ := path
  clear registered
  induction between generalizing a with
  | nil => exact ⟨b, List.isChain_pair.1 edges, .refl b⟩
  | cons middle rest ih =>
    obtain ⟨declared, further⟩ := List.isChain_cons_cons.1 edges
    obtain ⟨m, next, reached⟩ := ih further
    exact ⟨middle, declared, .head next reached⟩

theorem reaches (path : Path registry a between b) : Reaches registry.membersOf a b := by
  obtain ⟨m, declared, reached⟩ := path.first
  exact .head declared reached

end Path

/-- There is a path to whatever is declared by a name that is reached. -/
theorem Reaches.exists_path (reached : Reaches registry.membersOf a b)
    (declared : Declares registry b c) : ∃ between, Path registry a between c := by
  induction reached generalizing c with
  | here same =>
    rw [Declares, ← Registry.membersOf_congr same] at declared
    exact ⟨[], .edge declared⟩
  | member _ before ih =>
    obtain ⟨between, path⟩ := ih before
    exact ⟨_, path.push declared⟩

/-- A name is reached exactly if it is the source or there is a path to it. -/
theorem reaches_iff_path : Reaches registry.membersOf a b ↔
    a.same b = true ∨ ∃ between, Path registry a between b := by
  constructor
  · intro reached
    cases reached with
    | here same => exact .inl same
    | member reached declared => exact .inr (reached.exists_path declared)
  · rintro (same | ⟨between, path⟩)
    · exact .here same
    · exact path.reaches

/-- A graph has no cycle exactly if no path leads from a name to itself. -/
theorem acyclic_iff_no_path : Acyclic registry ↔ ∀ a between, ¬ Path registry a between a := by
  constructor
  · intro acyclic a between path
    obtain ⟨n, declared, reached⟩ := path.first
    obtain ⟨m, member, same⟩ := NameSet.contains_iff.1 declared
    exact acyclic a m member (.trans (.here same) reached)
  · intro none a m member reached
    have declared := NameSet.contains_of_mem member
    suffices closed : ∃ between, Path registry a between a by
      obtain ⟨between, path⟩ := closed
      exact none a between path
    cases reached with
    | here same => exact (Reaches.refl a).exists_path (NameSet.contains_congr same declared)
    | member reached last => exact (Reaches.head declared reached).exists_path last

section Definition

variable {name : String} {d : Definition}

theorem membersOf_insert_self (same : a.same (.text name) = true) :
    Registry.membersOf (Entries.insert name d registry) a = d.members := by
  rw [Registry.membersOf_congr same]
  exact Registry.membersOf_of_find? (Entries.find?_insert_self name d registry)

theorem membersOf_insert_of_ne (other : ¬ a.same (.text name) = true) :
    Registry.membersOf (Entries.insert name d registry) a = registry.membersOf a := by
  have found : Registry.find? (Entries.insert name d registry) a = registry.find? a := by
    cases a with
    | text s =>
      refine Entries.find?_insert_of_ne ?_ d registry
      rintro rfl
      exact other (Scalar.same_refl _)
    | _ => rfl
  rw [Registry.membersOf, Registry.membersOf, found]

/-- What is reached with a definition was reached without it, or is reached by way of the name that
is defined and one of the members that it is given. -/
theorem reaches_or_crosses
    (reached : Reaches (Registry.membersOf (Entries.insert name d registry)) a b) :
    Reaches registry.membersOf a b ∨ (Reaches registry.membersOf a (.text name) ∧
      ∃ m ∈ d.members, Reaches registry.membersOf m b) := by
  induction reached with
  | here same => exact .inl (.here same)
  | @member middle target _ declared ih =>
    by_cases own : middle.same (.text name) = true
    · -- the last time that the name is passed decides which of its members is taken
      rw [membersOf_insert_self own] at declared
      obtain ⟨m, member, same⟩ := NameSet.contains_iff.1 declared
      right
      refine ⟨?_, m, member, .here same⟩
      rcases ih with before | ⟨before, -⟩
      · exact before.congr own
      · exact before
    · rw [membersOf_insert_of_ne own] at declared
      rcases ih with before | ⟨before, m, member, further⟩
      · exact .inl (.member before declared)
      · exact .inr ⟨before, m, member, .member further declared⟩

/-- A definition whose members do not reach its name closes no cycle. -/
theorem Acyclic.insert (acyclic : Acyclic registry)
    (apart : ∀ m ∈ d.members, ¬ Reaches registry.membersOf m (.text name)) :
    Acyclic (Entries.insert name d registry) := by
  intro a m member reached
  by_cases own : a.same (.text name) = true
  · rw [membersOf_insert_self own] at member
    rcases reaches_or_crosses reached with before | ⟨before, -⟩
    · exact apart m member (before.congr own)
    · exact apart m member before
  · rw [membersOf_insert_of_ne own] at member
    rcases reaches_or_crosses reached with before | ⟨before, n, added, back⟩
    · exact acyclic a m member before
    · -- from the added member the cycle leads back to the name without using the definition
      have onward := Reaches.head (NameSet.contains_of_mem member) before
      exact apart n added (back.trans onward)

end Definition

/-- The cycle detector's walk ends, on any graph. It answers yes exactly if the two names are the
same or a path leads from the member to the name. So if it answers no for all members of a
definition, defining the name by it, anew or again, leaves a graph without cycles without cycles. -/
theorem circular_iff_path (registry : Registry) (name member : Scalar) :
    Finishes registry.membersOf [member] [member] (reachable registry member) ∧
      (isCircular registry name member = true ↔
        member.same name = true ∨ ∃ between, Path registry member between name) ∧
      (Acyclic registry → ∀ (name : String) (d : Definition),
        (∀ m ∈ d.members, isCircular registry (.text name) m = false) →
        Acyclic (Entries.insert name d registry)) := by
  refine ⟨finishes_reachable registry member, isCircular_iff.trans reaches_iff_path, ?_⟩
  intro acyclic name d apart
  refine acyclic.insert fun m member reached => ?_
  have closed := isCircular_iff.2 reached
  rw [apart m member] at closed
  cases closed

/-- An aggregate is defined above an atomic privilege and then again, with another member that is
not registered. -/
theorem circular_iff_path_redefined :
    Acyclic (Entries.insert "browse" ⟨"browse", [.text "read", .text "list"], false⟩
      [("read", ⟨"read", [], false⟩), ("browse", ⟨"browse", [.text "read"], false⟩)]) := by
  have empty : Acyclic [] := by
    intro a m member
    cases a <;> exact absurd member List.not_mem_nil
  have leaf := (circular_iff_path [] (.text "read") (.text "read")).2.2 empty "read"
    ⟨"read", [], false⟩ (by decide)
  have nested := (circular_iff_path _ (.text "browse") (.text "read")).2.2 leaf "browse"
    ⟨"browse", [.text "read"], false⟩ (by decide)
  exact (circular_iff_path _ (.text "browse") (.text "list")).2.2 nested "browse"
    ⟨"browse", [.text "read", .text "list"], false⟩ (by decide)

end Aggregation

end PrivilegeStore
