import PrivilegeStore.Proofs.Aggregation.Retention

/-!
# Graphs that grow

A registry is extended by definitions whose members were all registered before. What is reached from
an old name stays within the old graph, so that no cycle is closed by an extension and the leaves of
old names stay the same. It is enough for this that old names keep their members as a set.
-/
namespace PrivilegeStore

namespace Aggregation

/-- Every declared member is registered. -/
def Linked (registry : Registry) : Prop :=
  ∀ a, ∀ m ∈ registry.membersOf a, registry.Registered m

/-- No name is reached from one of its members. -/
def Acyclic (registry : Registry) : Prop :=
  ∀ a, ∀ m ∈ registry.membersOf a, ¬ Reaches registry.membersOf m a

/-- Definitions are kept, and new ones have old members. -/
structure Extends (old new : Registry) : Prop where
  kept : ∀ a d, old.find? a = some d → new.find? a = some d
  added : ∀ a d, new.find? a = some d →
    old.find? a = some d ∨ (old.find? a = none ∧ ∀ m ∈ d.members, old.Registered m)

/-- Names stay registered with the same set of members, and new ones have old members. -/
structure Enlarges (old new : Registry) : Prop where
  registered : ∀ a, old.Registered a → new.Registered a
  members : ∀ a, old.Registered a → ∀ b,
    NameSet.contains (new.membersOf a) b = true ↔ NameSet.contains (old.membersOf a) b = true
  added : ∀ a, ¬ old.Registered a → ∀ m ∈ new.membersOf a, old.Registered m

variable {registry old new : Registry} {a b : Scalar} {leaf : String}

/-- In a linked graph everything reached from a registered name is registered. -/
theorem Linked.registered (linked : Linked registry) (registered : registry.Registered a)
    (reached : Reaches registry.membersOf a b) : registry.Registered b := by
  cases reached with
  | here same => exact (registered_congr same).1 registered
  | member _ declared =>
    obtain ⟨m, member, same⟩ := NameSet.contains_iff.1 declared
    exact (registered_congr same).1 (linked _ m member)

theorem Linked.resolvable (linked : Linked registry) (registered : registry.Registered a) :
    Resolvable registry a :=
  fun _ => linked.registered registered

namespace Enlarges

theorem retains (enlarged : Enlarges old new) : Retains old new :=
  ⟨enlarged.registered, enlarged.members⟩

/-- Members in the new graph were registered in the old one. -/
theorem registered_before (enlarged : Enlarges old new) (linked : Linked old) {m : Scalar}
    (member : m ∈ new.membersOf a) : old.Registered m := by
  by_cases before : old.Registered a
  · have declared := (enlarged.members a before m).1 (NameSet.contains_of_mem member)
    obtain ⟨n, there, same⟩ := NameSet.contains_iff.1 declared
    exact (registered_congr same).1 (linked a n there)
  · exact enlarged.added a before m member

theorem linked (enlarged : Enlarges old new) (before : Linked old) : Linked new :=
  fun _ m member => enlarged.registered m (enlarged.registered_before before member)

/-- From an old name the same names are reached as before. -/
theorem reaches_iff (enlarged : Enlarges old new) (linked : Linked old)
    (registered : old.Registered a) : Reaches new.membersOf a b ↔ Reaches old.membersOf a b :=
  enlarged.retains.reaches_iff (linked.resolvable registered)

/-- An extension closes no cycle. -/
theorem acyclic (enlarged : Enlarges old new) (linked : Linked old) (before : Acyclic old) :
    Acyclic new := by
  intro a m member reached
  have registered := enlarged.registered_before linked member
  -- a way back from a member would run in the old graph, so its end is an old name as well
  rw [enlarged.reaches_iff linked registered] at reached
  have declared := (enlarged.members a (linked.registered registered reached) m).1
    (NameSet.contains_of_mem member)
  obtain ⟨n, there, same⟩ := NameSet.contains_iff.1 declared
  exact before a n there (.trans (.here same) reached)

/-- Old names keep their leaves. -/
theorem leafOf_iff (enlarged : Enlarges old new) (linked : Linked old)
    (registered : old.Registered a) : LeafOf new a leaf ↔ LeafOf old a leaf :=
  enlarged.retains.leafOf_iff (linked.resolvable registered)

end Enlarges

/-- Definitions that are kept keep their members. -/
theorem Extends.enlarges (extended : Extends old new) : Enlarges old new := by
  constructor
  · intro a h
    obtain ⟨d, found⟩ := Option.isSome_iff_exists.1 h
    exact registered_of_find? (extended.kept a d found)
  · intro a h b
    obtain ⟨d, found⟩ := Option.isSome_iff_exists.1 h
    rw [Registry.membersOf_of_find? found, Registry.membersOf_of_find? (extended.kept a d found)]
  · intro a fresh m member
    obtain ⟨d, found⟩ := Option.isSome_iff_exists.1 (registered_of_mem member)
    rw [Registry.membersOf_of_find? found] at member
    rcases extended.added a d found with before | ⟨-, members⟩
    · exact absurd (registered_of_find? before) fresh
    · exact members m member

end Aggregation

end PrivilegeStore
