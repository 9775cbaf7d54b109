import PrivilegeStore.Proofs.Aggregation.Acceptance

/-!
# What is left to check in a linked graph

In a graph without unregistered members a new name cannot be reached from registered ones, and every
registered name can be resolved. So of the terms on an aggregate that carries the union of its
members' bits two are left: its members are registered, and it decomposes into other atomic names
than every registered aggregate. That another aggregate declares the same members is a case of the
latter.
-/
namespace PrivilegeStore.Aggregation

/-- Names decompose into the same atomic names as others. -/
def SameLeaves (registry : Registry) (names others : List Scalar) : Prop :=
  ∀ leaf, (∃ m ∈ names, LeafOf registry m leaf) ↔ ∃ n ∈ others, LeafOf registry n leaf

/-- Members decompose otherwise than every registered aggregate. -/
def Novel (registry : Registry) (members : List Scalar) : Prop :=
  ∀ other d, registry.find? (.text other) = some d → d.isAggregate = true →
    ¬ SameLeaves registry members [.text other]

variable {registry : Registry} {entries : Entries Bits} {definition : Definition} {bits : Bits}

theorem leaves_of_contains {names others : NameSet} (within : names.all others.contains = true)
    {leaf : String} (found : ∃ m ∈ names, LeafOf registry m leaf) :
    ∃ n ∈ others, LeafOf registry n leaf := by
  obtain ⟨m, member, inside⟩ := found
  obtain ⟨n, other, same⟩ := NameSet.contains_iff.1 (List.all_eq_true.1 within m member)
  exact ⟨n, other, .of_reaches (.here same) inside⟩

/-- The same members have the same leaves. -/
theorem sameLeaves_of_sameAs {names others : NameSet} (same : NameSet.sameAs names others = true) :
    SameLeaves registry names others := by
  rw [NameSet.sameAs, Bool.and_eq_true] at same
  exact fun leaf => ⟨leaves_of_contains same.1, leaves_of_contains same.2⟩

theorem novel_congr {names others : List Scalar} (same : ∀ a, a ∈ names ↔ a ∈ others) :
    Novel registry names ↔ Novel registry others := by
  simp only [Novel, SameLeaves, same]

/-- An aggregate may be compared by its name or by its members. -/
theorem sameLeaves_iff_of_aggregate {names : List Scalar} {a : Scalar} {d : Definition}
    (found : registry.find? a = some d) (aggregate : d.isAggregate = true) :
    SameLeaves registry names [a] ↔ SameLeaves registry names d.members := by
  refine forall_congr' fun leaf => ?_
  rw [← leafOf_of_aggregate found aggregate]
  simp

/-- In a linked graph a novel aggregate differs in effect from every registered one. -/
theorem Novel.distinguished {members : List Scalar} (novel : Novel registry members)
    (linked : Linked registry) {other : String} {d : Definition}
    (found : registry.find? (.text other) = some d) (aggregate : d.isAggregate = true) :
    Distinguished registry members d := by
  have differ := novel other d found aggregate
  rw [sameLeaves_iff_of_aggregate found aggregate] at differ
  constructor
  · rw [← Bool.not_eq_true]
    exact fun same => differ (sameLeaves_of_sameAs same)
  · intro m declared
    rw [← Registry.membersOf_of_find? found] at declared
    exact linked.resolvable (linked _ m declared)
  · exact differ

/-- In a linked graph an aggregate that has the union of its members' bits satisfies the terms
exactly if its members are registered and it is novel. -/
theorem aggregateTerms_iff (linked : Linked registry)
    (listed : ∀ entry ∈ registry, registry.find? (.text entry.1) = some entry.2)
    (fresh : registry.find? (.text definition.name) = none)
    (ordered : ∃ inOrder, NameSet.sorted definition.members = .ok inOrder)
    (union : bits = BitsTable.unionOf entries definition.members) :
    AggregateTerms registry entries definition bits ↔
      (∀ m ∈ definition.members, registry.Registered m) ∧ Novel registry definition.members := by
  constructor
  · intro terms
    refine ⟨terms.registered, fun other d found aggregate => ?_⟩
    have entry : (other, d) ∈ registry := Entries.mem_of_find? found
    rw [sameLeaves_iff_of_aggregate found aggregate]
    exact (terms.distinguished d (List.mem_map_of_mem entry) aggregate).leaves
  · rintro ⟨registered, novel⟩
    constructor
    · exact ordered
    · exact registered
    · intro m member reached
      -- what a registered name reaches is registered, and the new name is not
      have known := linked.registered (registered m member) reached
      rw [Registry.Registered, fresh] at known
      contradiction
    · exact fun m member => linked.resolvable (registered m member)
    · exact union
    · intro existing member aggregate
      obtain ⟨entry, there, rfl⟩ := List.mem_map.1 member
      exact novel.distinguished linked (listed entry there) aggregate

end PrivilegeStore.Aggregation
