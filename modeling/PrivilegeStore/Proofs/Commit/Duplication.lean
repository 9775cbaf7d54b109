import Mathlib.Control.Monad.Basic
import PrivilegeStore.Proofs.Aggregation.Eligibility
import PrivilegeStore.Proofs.Commit.Meaning

/-!
# Equivalent aggregates

An aggregate is only compared with those that were registered before the commit. So an accepted
commit keeps aggregates different from one another exactly if those that it adds itself are, however
its definitions are stored and however deep they are nested.
-/
namespace PrivilegeStore

/-- Whether a name is defined with members. -/
def Registry.Aggregate (registry : Registry) (name : String) : Prop :=
  ∃ d, registry.find? (.text name) = some d ∧ d.isAggregate = true

namespace Aggregation

/-- Two names decompose into the same atomic names. -/
def SameClosure (registry : Registry) (m n : String) : Prop :=
  ∃ leaves others, resolve registry [.text m] = .ok leaves ∧
    resolve registry [.text n] = .ok others ∧ sameNames leaves others = true

/-- No two aggregates decompose into the same atomic names. -/
def ClosuresDiffer (registry : Registry) : Prop :=
  ∀ m n, registry.Aggregate m → registry.Aggregate n → m ≠ n → ¬ SameClosure registry m n

/-- Two names neither declare the same members nor decompose into the same atomic names. -/
structure Differ (registry : Registry) (m n : String) : Prop where
  members : NameSet.sameAs (registry.membersOf (.text m)) (registry.membersOf (.text n)) = false
  closures : ¬ SameClosure registry m n

/-- No two aggregates declare the same members or decompose into the same atomic names. -/
def AggregatesDiffer (registry : Registry) : Prop :=
  ∀ m n, registry.Aggregate m → registry.Aggregate n → m ≠ n → Differ registry m n

variable {registry : Registry} {m n : String}

theorem registered_of_aggregate (aggregate : registry.Aggregate m) :
    registry.Registered (.text m) := by
  obtain ⟨d, found, -⟩ := aggregate
  exact registered_of_find? found

theorem sameLeaves_singletons {a b : Scalar} : SameLeaves registry [a] [b] ↔
    ∀ leaf, LeafOf registry a leaf ↔ LeafOf registry b leaf := by
  simp [SameLeaves]

theorem aggregate_iff :
    registry.Aggregate m ↔ registry.Registered (.text m) ∧ ¬ registry.Atomic (.text m) := by
  cases found : registry.find? (.text m) with
  | none => simp [Registry.Aggregate, Registry.Registered, found]
  | some d => simp [Registry.Aggregate, Registry.Registered, Registry.Atomic, found]

theorem Enlarges.aggregate_iff {old new : Registry} (enlarged : Enlarges old new)
    (known : old.Registered (.text m)) : new.Aggregate m ↔ old.Aggregate m := by
  simp only [Aggregation.aggregate_iff, known, enlarged.registered _ known,
    enlarged.retains.atomic_iff known]

theorem closuresDiffer_of_single
    (only : ∀ entry ∈ registry, entry.2.isAggregate = true → entry.1 = m) :
    ClosuresDiffer registry := by
  intro a b ⟨d, foundA, aggregateA⟩ ⟨e, foundB, aggregateB⟩ different
  have first : a = m := only (a, d) (Entries.mem_of_find? foundA) aggregateA
  have second : b = m := only (b, e) (Entries.mem_of_find? foundB) aggregateB
  exact absurd (first.trans second.symm) different

/-- In a linked graph registered names have closures, so only their leaves are to be compared. -/
theorem sameClosure_iff (linked : Linked registry) (knownM : registry.Registered (.text m))
    (knownN : registry.Registered (.text n)) :
    SameClosure registry m n ↔ SameLeaves registry [.text m] [.text n] := by
  obtain ⟨leaves, resolvedM, memberM⟩ := linked.resolve_ok (List.forall_mem_singleton.2 knownM)
  obtain ⟨others, resolvedN, memberN⟩ := linked.resolve_ok (List.forall_mem_singleton.2 knownN)
  simp only [SameClosure, resolvedM, resolvedN, Except.ok.injEq, exists_and_left, exists_eq_left',
    sameNames_iff, memberM, memberN, SameLeaves]

/-- In a linked graph aggregates with different closures declare different members as well. -/
theorem differ_iff (linked : Linked registry) (aggregateM : registry.Aggregate m)
    (aggregateN : registry.Aggregate n) :
    Differ registry m n ↔ ¬ SameLeaves registry [.text m] [.text n] := by
  have closures := sameClosure_iff linked (registered_of_aggregate aggregateM)
    (registered_of_aggregate aggregateN)
  rw [← closures]
  refine ⟨Differ.closures, fun different => ⟨?_, different⟩⟩
  obtain ⟨d, foundD, isAggD⟩ := aggregateM
  obtain ⟨e, foundE, isAggE⟩ := aggregateN
  rw [Registry.membersOf_of_find? foundD, Registry.membersOf_of_find? foundE, ← Bool.not_eq_true]
  intro same
  have leaves : SameLeaves registry d.members e.members := sameLeaves_of_sameAs same
  refine different (closures.2 ?_)
  rw [sameLeaves_singletons]
  intro leaf
  rw [leafOf_of_aggregate foundD isAggD, leafOf_of_aggregate foundE isAggE]
  exact leaves leaf

end Aggregation

namespace Commit

open Aggregation (Linked Acyclic Enlarges LeafOf SameLeaves Admissible Differ ClosuresDiffer
  AggregatesDiffer)

variable {settings : Settings} {before after : Snapshot} {old new : Registry} {name m n : String}

/-- After a commit on a store of definitions that could be read they can all be read. -/
theorem Accepts.registry_ok (accepted : Accepts settings before after)
    (definitions : (before.privileges settings).OnlyDefinitions)
    (readBefore : (before.privileges settings).registry = .ok old) :
    ∃ new, (after.privileges settings).registry = .ok new := by
  refine View.definitionsAmong_ok fun name _ isDef => ?_
  rcases definitions.absent_or_definition name with fresh | wasDef
  · obtain ⟨child, there, nowDef⟩ := View.isDefinition_iff.1 isDef
    obtain ⟨-, d, -, -, read, -⟩ := accepted.admissible fresh there nowDef
    exact ⟨d, read⟩
  · obtain ⟨d, read⟩ := View.definition_of_registry readBefore wasDef
    obtain ⟨-, e, still, -⟩ := accepted.definition_kept wasDef read
    exact ⟨e, still⟩

section Step

variable (accepted : Accepts settings before after)
  (definitions : (before.privileges settings).OnlyDefinitions)
  (readBefore : (before.privileges settings).registry = .ok old)
  (readAfter : (after.privileges settings).registry = .ok new)

include accepted definitions readBefore readAfter

theorem Accepts.terms_of_added {d : Definition} (fresh : ¬ old.Registered (.text name))
    (found : new.find? (.text name) = some d) :
    ∃ bits, Admissible old (before.privileges settings).bitsTable.entries
      (after.privileges settings) d bits := by
  obtain ⟨isDef, named⟩ := (View.find?_registry readAfter).1 found
  have absent : ((before.privileges settings).child name).state = none :=
    (definitions.absent_or_definition name).resolve_right
      fun wasDef => fresh ((View.registered_iff readBefore).2 wasDef)
  obtain ⟨bits, -, terms⟩ := accepted.added_admissible readBefore absent isDef named
  exact ⟨bits, terms⟩

/-- An accepted commit enlarges the registry. -/
theorem Accepts.registry_enlarges : Enlarges old new := by
  have retained := accepted.registry_retains readBefore readAfter
  constructor
  · exact retained.registered
  · exact retained.members
  · intro a fresh m member
    obtain ⟨d, found⟩ := Option.isSome_iff_exists.1 (Aggregation.registered_of_mem member)
    rw [Registry.membersOf_of_find? found] at member
    cases a with
    | text name =>
      obtain ⟨bits, -, ⟨none, -⟩ | ⟨-, terms⟩⟩ :=
        accepted.terms_of_added definitions readBefore readAfter fresh found
      · rw [none] at member
        exact absurd member List.not_mem_nil
      · exact terms.registered m member
    | _ => cases found

/-- An added aggregate decomposes otherwise than one that was there before. -/
theorem Accepts.added_differs (linked : Linked old) (aggregateM : new.Aggregate m)
    (fresh : ¬ old.Registered (.text m)) (aggregateN : new.Aggregate n)
    (known : old.Registered (.text n)) : ¬ SameLeaves new [.text m] [.text n] := by
  have enlarged := accepted.registry_enlarges definitions readBefore readAfter
  obtain ⟨d, found, isAggregate⟩ := aggregateM
  obtain ⟨e, past, wasAggregate⟩ := (enlarged.aggregate_iff known).1 aggregateN
  obtain ⟨bits, -, ⟨none, -⟩ | ⟨-, terms⟩⟩ :=
    accepted.terms_of_added definitions readBefore readAfter fresh found
  · simp [Definition.isAggregate, none] at isAggregate
  · intro same
    have entry : (n, e) ∈ old := Entries.mem_of_find? past
    refine (terms.distinguished e (List.mem_map_of_mem entry) wasAggregate).leaves fun leaf => ?_
    calc (∃ x ∈ d.members, LeafOf old x leaf)
        ↔ ∃ x ∈ d.members, LeafOf new x leaf :=
          exists_congr fun x => and_congr_right fun member =>
            (enlarged.leafOf_iff linked (terms.registered x member)).symm
      _ ↔ LeafOf new (.text m) leaf := (Aggregation.leafOf_of_aggregate found isAggregate).symm
      _ ↔ LeafOf new (.text n) leaf := Aggregation.sameLeaves_singletons.1 same leaf
      _ ↔ LeafOf old (.text n) leaf := enlarged.leafOf_iff linked known
      _ ↔ ∃ x ∈ e.members, LeafOf old x leaf :=
          Aggregation.leafOf_of_aggregate past wasAggregate

end Step

/-- After an accepted commit no two aggregates declare the same members or have the same closure,
exactly if this holds of the aggregates that the commit adds, which are not compared with each
other. -/
theorem Accepts.aggregates_differ_iff (accepted : Accepts settings before after)
    (definitions : (before.privileges settings).OnlyDefinitions)
    (readBefore : (before.privileges settings).registry = .ok old) (linked : Linked old)
    (differ : ClosuresDiffer old) :
    ∃ new, (after.privileges settings).registry = .ok new ∧ Linked new ∧
      (AggregatesDiffer new ↔
        ∀ m n, ¬ old.Registered (.text m) → ¬ old.Registered (.text n) → new.Aggregate m →
          new.Aggregate n → m ≠ n → Differ new m n) := by
  obtain ⟨new, readAfter⟩ := accepted.registry_ok definitions readBefore
  have enlarged := accepted.registry_enlarges definitions readBefore readAfter
  have linkedAfter := enlarged.linked linked
  have others {m n : String} := accepted.added_differs (m := m) (n := n) definitions readBefore
    readAfter linked
  refine ⟨new, readAfter, linkedAfter, fun all m n _ _ => all m n, ?_⟩
  intro added m n aggregateM aggregateN different
  by_cases knownM : old.Registered (.text m) <;> by_cases knownN : old.Registered (.text n)
  · -- both were there before and have kept their leaves
    rw [Aggregation.differ_iff linkedAfter aggregateM aggregateN]
    intro same
    refine differ m n ((enlarged.aggregate_iff knownM).1 aggregateM)
      ((enlarged.aggregate_iff knownN).1 aggregateN) different ?_
    rw [Aggregation.sameLeaves_singletons] at same
    rw [Aggregation.sameClosure_iff linked knownM knownN, Aggregation.sameLeaves_singletons]
    intro leaf
    rw [← enlarged.leafOf_iff linked knownM, ← enlarged.leafOf_iff linked knownN]
    exact same leaf
  · rw [Aggregation.differ_iff linkedAfter aggregateM aggregateN]
    intro same
    exact others aggregateN knownN aggregateM knownM fun leaf => (same leaf).symm
  · rw [Aggregation.differ_iff linkedAfter aggregateM aggregateN]
    exact others aggregateM knownM aggregateN knownN
  · exact added m n knownM knownN aggregateM aggregateN different

/-- Beside an aggregate of two atomic privileges, one of that aggregate and a third privilege. -/
theorem aggregates_differ_of_nested :
    let before := holding ⟨8⟩ [("read", atom ⟨1⟩), ("write", atom ⟨2⟩), ("exec", atom ⟨4⟩),
      ("rw", aggregate ⟨3⟩ ["read", "write"])]
    let after := holding ⟨8⟩ [("read", atom ⟨1⟩), ("write", atom ⟨2⟩), ("exec", atom ⟨4⟩),
      ("rw", aggregate ⟨3⟩ ["read", "write"]), ("all", aggregate ⟨7⟩ ["exec", "rw"])]
    Accepts {} before after ∧
      ∃ new, after.privileges.registry = .ok new ∧ Linked new ∧ AggregatesDiffer new := by
  intro before after
  let old : Registry := [("read", ⟨"read", [], false⟩), ("write", ⟨"write", [], false⟩),
    ("exec", ⟨"exec", [], false⟩), ("rw", ⟨"rw", [.text "read", .text "write"], false⟩)]
  let new : Registry := old ++ [("all", ⟨"all", [.text "exec", .text "rw"], false⟩)]
  have accepted : Accepts {} before after := by decide +kernel
  have definitions : before.privileges.OnlyDefinitions := by
    refine forall_child_holding ?_
    simp [Registration.isDefinition_definitionNode]
  have readBefore : before.privileges.registry = .ok old := by decide +kernel
  have readAfter : after.privileges.registry = .ok new := by decide +kernel
  have single : ∀ entry ∈ new, ¬ old.Registered (.text entry.1) → entry.1 = "all" := by
    decide +kernel
  obtain ⟨found, read, linked, differ⟩ := accepted.aggregates_differ_iff definitions readBefore
    (Aggregation.Closed.linked (by decide +kernel))
    (Aggregation.closuresDiffer_of_single (m := "rw") (by decide +kernel))
  refine ⟨accepted, found, read, linked, differ.2 ?_⟩
  rw [readAfter] at read
  cases read
  intro m n freshM freshN ⟨d, foundM, _⟩ ⟨e, foundN, _⟩ different
  have first : m = "all" := single (m, d) (Entries.mem_of_find? foundM) freshM
  have second : n = "all" := single (n, e) (Entries.mem_of_find? foundN) freshN
  exact absurd (first.trans second.symm) different

/-- Two aggregates of the same members that are added by one commit are both accepted. -/
theorem aggregates_of_one_commit_alike :
    ¬ ∀ (before after : Snapshot) (old new : Registry), before.privileges.OnlyDefinitions →
      before.privileges.registry = .ok old → Linked old → Acyclic old → ClosuresDiffer old →
      Accepts {} before after → after.privileges.registry = .ok new → AggregatesDiffer new := by
  intro always
  let old : Registry := [("read", ⟨"read", [], false⟩), ("write", ⟨"write", [], false⟩)]
  let new : Registry := old ++ [("both", ⟨"both", [.text "read", .text "write"], false⟩),
    ("rw", ⟨"rw", [.text "read", .text "write"], false⟩)]
  have none : ∀ a, old.membersOf a = [] := by
    intro a
    have empty : old.members = [] := rfl
    refine List.eq_nil_iff_forall_not_mem.2 fun m member => ?_
    exact absurd (Registry.mem_members member) (by rw [empty]; exact List.not_mem_nil)
  have linked : Linked old := Aggregation.Closed.linked (by decide +kernel)
  have acyclic : Acyclic old := by
    intro a m member
    rw [none] at member
    exact absurd member List.not_mem_nil
  have closures : ClosuresDiffer old :=
    Aggregation.closuresDiffer_of_single (m := "") (by decide +kernel)
  have definitions : (holding ⟨4⟩ [("read", atom ⟨1⟩),
      ("write", atom ⟨2⟩)]).privileges.OnlyDefinitions := by
    refine forall_child_holding ?_
    simp [Registration.isDefinition_definitionNode]
  have differ := always (holding ⟨4⟩ [("read", atom ⟨1⟩), ("write", atom ⟨2⟩)])
    (holding ⟨4⟩ [("read", atom ⟨1⟩), ("write", atom ⟨2⟩),
      ("both", aggregate ⟨3⟩ ["read", "write"]), ("rw", aggregate ⟨3⟩ ["read", "write"])])
    old new definitions (by decide +kernel) linked acyclic closures (by decide +kernel)
    (by decide +kernel)
  have members := (differ "both" "rw" ⟨_, rfl, rfl⟩ ⟨_, rfl, rfl⟩ (by decide)).members
  revert members
  decide +kernel

end Commit

end PrivilegeStore
