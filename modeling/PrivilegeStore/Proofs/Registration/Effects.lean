import PrivilegeStore.Proofs.Commit.History

/-!
# What registration does to a store

A registration sets one child and, if it takes bits from the counter, moves the counter to the bit
above. Nothing else of the privileges node changes.
-/
namespace PrivilegeStore.Registration

variable {store : View} {node moved : Node} {members : NameSet} {bits counter : Bits}

theorem allocate_nil (read : store.nextBits = .ok counter) :
    allocate store node [] = .ok (counter, node.setProperty Schema.next counter.next.stored) := by
  simp [allocate, read]

theorem allocate_of_members (given : members ≠ []) (clean : store.bitsTable.fault = none) :
    allocate store node members =
      .ok (BitsTable.unionOf store.bitsTable.entries members, node) := by
  have index : (BitsIndex.mk store false).store.bitsTable.fault = none := clean
  simp [allocate, given, BitsIndex.bitsOf_of_no_fault members index]

/-- Where bits and the counter can be read, there are bits for every set of members. -/
theorem allocate_ok (clean : store.bitsTable.fault = none) (read : store.nextBits = .ok counter)
    (node : Node) (members : NameSet) :
    ∃ bits moved, allocate store node members = .ok (bits, moved) := by
  by_cases given : members = []
  · rw [given]
    exact ⟨_, _, allocate_nil read⟩
  · exact ⟨_, _, allocate_of_members given clean⟩

/-- Allocating changes the counter at most. -/
theorem allocate_frame (allocated : allocate store node members = .ok (bits, moved)) :
    (∀ other, moved.child? other = node.child? other) ∧
      ∀ other, Schema.next ≠ other → moved.property? other = node.property? other := by
  rw [allocate] at allocated
  split at allocated
  · split at allocated
    · cases allocated
    · cases allocated
      refine ⟨fun other => rfl, fun other different => ?_⟩
      rw [Node.property?_setProperty, if_neg different]
  · split at allocated
    · cases allocated
    · cases allocated
      exact ⟨fun other => rfl, fun other different => rfl⟩

/-- A definition is put into a store under some name, with the bits of the counter, which moves on,
or with the bits of its members. -/
structure Registers (store later : View) (name : String) (members : NameSet) (isAbstract : Bool)
    (bits : Bits) : Prop where
  added : (later.child name).state = some (definitionNode bits members isAbstract)
  others : ∀ other, name ≠ other → later.child other = store.child other
  properties : ∀ other, Schema.next ≠ other → later.property? other = store.property? other
  allocated : (members = [] ∧ store.nextBits = .ok bits ∧
      later.property? Schema.next = some bits.next.stored) ∨
    (members ≠ [] ∧ ((BitsIndex.mk store false).bitsOf members).1 = .ok bits ∧
      later.property? Schema.next = store.property? Schema.next)

theorem registers_of_allocate (state : store.state = some node)
    (allocated : allocate store node members = .ok (bits, moved)) (name : String)
    (isAbstract : Bool) :
    Registers store
      ⟨store.path, some (moved.setChild name (definitionNode bits members isAbstract))⟩
      name members isAbstract bits := by
  obtain ⟨children, properties⟩ := allocate_frame allocated
  constructor
  · simp [View.child, View.below, Node.child?_setChild]
  · intro other different
    simp [View.child, View.below, Node.child?_setChild, different, state, children]
  · intro other different
    simp [View.property?, state, properties other different]
  · rw [allocate] at allocated
    split at allocated
    next none =>
      split at allocated
      · cases allocated
      next counter read =>
        cases allocated
        refine .inl ⟨by simpa using none, read, ?_⟩
        simp [View.property?, Node.property?_setProperty]
    next some =>
      split at allocated
      · cases allocated
      next own index asked =>
        cases allocated
        refine .inr ⟨by simpa using some, by rw [asked], ?_⟩
        simp [View.property?, state]

/-- A registration puts the privileges node back with the new definition. -/
theorem register_eq {s : Snapshot} {name : String} {given : List Scalar} {inOrder : NameSet}
    {isAbstract : Bool} {settings : Settings}
    (state : (s.privileges settings).state = some node)
    (ordered : NameSet.sorted (NameSet.ofList given) = .ok inOrder)
    (allocated : allocate (s.privileges settings) node inOrder = .ok (bits, moved)) :
    register s name given isAbstract settings =
      .ok (s.put settings.privilegesPath
        (moved.setChild name (definitionNode bits inOrder isAbstract)), bits) := by
  simp only [register, state, ordered, allocated]

/-- A registration that succeeds does to the privileges node what it should. -/
theorem register_spec {s after : Snapshot} {name : String} {given : List Scalar}
    {isAbstract : Bool} {settings : Settings}
    (registered : register s name given isAbstract settings = .ok (after, bits)) :
    ∃ inOrder, NameSet.sorted (NameSet.ofList given) = .ok inOrder ∧
      Registers (s.privileges settings) (after.privileges settings) name inOrder isAbstract
        bits := by
  rw [register] at registered
  split at registered
  · cases registered
  next node state =>
    split at registered
    · cases registered
    next inOrder ordered =>
      split at registered
      · cases registered
      next own moved allocated =>
        cases registered
        refine ⟨inOrder, ordered, ?_⟩
        have put := Snapshot.view_put s settings.privilegesPath
          (moved.setChild name (definitionNode bits inOrder isAbstract))
        rw [Snapshot.privileges, Snapshot.privileges, put]
        exact registers_of_allocate state allocated name isAbstract

end PrivilegeStore.Registration
