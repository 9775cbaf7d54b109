import PrivilegeStore.Proofs.Bits.Positions
import PrivilegeStore.Proofs.Commit.Acceptance

/-!
# Bits of new atomic privileges

The bits of an atomic privilege that a commit adds belong to no privilege registered before, and the
counter afterwards stands above them. Nothing compares the privileges that one commit adds with each
other, and nothing compares new bits with the counter as it was. What this leaves open is stated
exactly: atomic privileges of one commit may share their bits, and new bits are those of the
counter if they are a single bit and the counter has moved.
-/
namespace PrivilegeStore

namespace View

/-- An atomic definition with its bits. -/
structure HasAtom (store : View) (name : String) (bits : Bits) : Prop where
  owned : store.Owns name bits
  atomic : ∃ d, (store.child name).definition = .ok d ∧ d.isAggregate = false

/-- Atomic definitions have pairwise different bits. -/
def AtomsDiffer (store : View) : Prop :=
  ∀ m n bits, store.HasAtom m bits → store.HasAtom n bits → m = n

end View

namespace Commit

variable {settings : Settings} {before after : Snapshot} {name other : String} {bits stored : Bits}

/-- A commit adds an atomic definition. -/
structure Adds (settings : Settings) (before after : Snapshot) (name : String) (bits : Bits) :
    Prop where
  fresh : ((before.privileges settings).child name).state = none
  atom : (after.privileges settings).HasAtom name bits

/-- An added atomic definition met the terms for atomic ones. -/
theorem Accepts.atomicTerms (accepted : Accepts settings before after)
    (added : Adds settings before after name bits) :
    (before.privileges settings).bitsTable.fault = none ∧
      Aggregation.AtomicTerms (before.privileges settings).bitsTable.entries
        (after.privileges settings) bits := by
  obtain ⟨child, there, isDef⟩ := added.atom.owned.state
  obtain ⟨registry, definition, found, -, named, read, clean, -, terms⟩ :=
    accepted.admissible added.fresh there isDef
  have same : found = bits := Except.ok.inj (read.symm.trans added.atom.owned.2)
  subst same
  obtain ⟨d, known, plain⟩ := added.atom.atomic
  have equal : definition = d := Except.ok.inj (named.symm.trans known)
  subst equal
  rcases terms with ⟨-, terms⟩ | ⟨enough, -⟩
  · exact ⟨clean, terms⟩
  · rw [Definition.isAggregate, Bool.not_eq_false', List.isEmpty_iff] at plain
    simp [plain] at enough

/-- The counter stands above added bits. -/
theorem Accepts.counter_above (accepted : Accepts settings before after)
    (added : Adds settings before after name bits) :
    (after.privileges settings).nextBits = .ok bits.next :=
  (accepted.atomicTerms added).2.counted

/-- Added bits were not in use. -/
theorem Accepts.unused (accepted : Accepts settings before after)
    (added : Adds settings before after name bits)
    (owned : (before.privileges settings).Owns other stored) : stored ≠ bits := by
  obtain ⟨clean, terms⟩ := accepted.atomicTerms added
  exact BitsTable.ownersOf_eq_nil terms.unused ((View.find?_bitsTable clean).2 owned)

/-- An atomic definition that was there before is the one that is there now. -/
theorem Accepts.atom_before (accepted : Accepts settings before after)
    (definitions : (before.privileges settings).OnlyDefinitions)
    (wordsBefore : (before.privileges settings).StoresWords)
    (wordsAfter : (after.privileges settings).StoresWords) {old : Node}
    (found : ((before.privileges settings).child name).state = some old)
    (atom : (after.privileges settings).HasAtom name bits) :
    (before.privileges settings).HasAtom name bits := by
  have isDef := definitions name old found
  obtain ⟨new, there, same⟩ := accepted.kept found isDef
  refine ⟨⟨View.isDefinition_iff.2 ⟨old, found, isDef⟩, ?_⟩, ?_⟩
  · rw [← accepted.bits_kept wordsBefore wordsAfter found isDef]
    exact atom.owned.2
  · exact View.definition_atomic_of_same there found (Node.same_symm same) atom.atomic

/-- Atomic bits stay pairwise different exactly if those added by the one commit are. -/
theorem Accepts.atoms_differ_iff (accepted : Accepts settings before after)
    (definitions : (before.privileges settings).OnlyDefinitions)
    (wordsBefore : (before.privileges settings).StoresWords)
    (wordsAfter : (after.privileges settings).StoresWords)
    (differ : (before.privileges settings).AtomsDiffer) :
    (after.privileges settings).AtomsDiffer ↔
      ∀ m n bits, Adds settings before after m bits → Adds settings before after n bits →
        m = n := by
  constructor
  · intro all m n bits first second
    exact all m n bits first.atom second.atom
  · intro added m n bits first second
    -- two old definitions were compared before, an old and a new one by the rule on used bits
    cases pastFirst : ((before.privileges settings).child m).state with
    | some old =>
      have one := accepted.atom_before definitions wordsBefore wordsAfter pastFirst first
      cases pastSecond : ((before.privileges settings).child n).state with
      | some _ =>
        exact differ m n bits one
          (accepted.atom_before definitions wordsBefore wordsAfter pastSecond second)
      | none => exact absurd rfl (accepted.unused ⟨pastSecond, second⟩ one.owned)
    | none =>
      cases pastSecond : ((before.privileges settings).child n).state with
      | some _ =>
        have two := accepted.atom_before definitions wordsBefore wordsAfter pastSecond second
        exact absurd rfl (accepted.unused ⟨pastFirst, first⟩ two.owned)
      | none => exact added m n bits ⟨pastFirst, first⟩ ⟨pastSecond, second⟩

/-- A snapshot with a store of atomic definitions. -/
def holdingAtoms (next : Bits) (atoms : Entries Bits) : Snapshot :=
  holding next (Entries.mapValues atom atoms)

section HoldingAtoms

variable {next : Bits} {atoms : Entries Bits}

theorem state_holdingAtoms {child : Node}
    (there : ((holdingAtoms next atoms).privileges.child name).state = some child) :
    ∃ bits, (name, bits) ∈ atoms ∧ child = atom bits := by
  obtain ⟨⟨n, bits⟩, member, same⟩ := List.mem_map.1 (mem_of_child_holding there)
  cases same
  exact ⟨bits, member, rfl⟩

theorem onlyDefinitions_holdingAtoms : (holdingAtoms next atoms).privileges.OnlyDefinitions := by
  intro name child there
  obtain ⟨bits, -, rfl⟩ := state_holdingAtoms there
  exact Registration.isDefinition_definitionNode

theorem storesWords_holdingAtoms : (holdingAtoms next atoms).privileges.StoresWords := by
  intro name child there
  obtain ⟨bits, -, rfl⟩ := state_holdingAtoms there
  exact Registration.storesWords_definitionNode

theorem mem_of_owns (owned : (holdingAtoms next atoms).privileges.Owns name bits) :
    (name, bits) ∈ atoms := by
  obtain ⟨child, there, -⟩ := owned.state
  obtain ⟨found, member, rfl⟩ := state_holdingAtoms there
  have read := Registration.bits_of_definitionNode there
  rw [owned.2] at read
  cases read
  exact member

theorem atomsDiffer_holdingAtoms (differ : ∀ x ∈ atoms, ∀ y ∈ atoms, x.2 = y.2 → x.1 = y.1) :
    (holdingAtoms next atoms).privileges.AtomsDiffer := by
  intro m n bits first second
  exact differ (m, bits) (mem_of_owns first.owned) (n, bits) (mem_of_owns second.owned) rfl

theorem hasAtom_holdingAtoms (found : Entries.find? name atoms = some bits) :
    (holdingAtoms next atoms).privileges.HasAtom name bits := by
  have there : ((holdingAtoms next atoms).privileges.child name).state = some (atom bits) := by
    rw [holdingAtoms, child_holding, Entries.find?_mapValues, found]
    rfl
  constructor
  · constructor
    · rw [View.isDefinition_of_state there]
      exact Registration.isDefinition_definitionNode
    · exact Registration.bits_of_definitionNode there
  · exact Registration.atomic_of_definitionNode there

end HoldingAtoms

/-- A second atomic privilege with bits of its own. -/
theorem atoms_differ_of_second :
    (holdingAtoms ⟨4⟩ [("read", ⟨1⟩), ("write", ⟨2⟩)]).privileges.AtomsDiffer := by
  have accepted : Accepts {} (holdingAtoms ⟨2⟩ [("read", ⟨1⟩)])
      (holdingAtoms ⟨4⟩ [("read", ⟨1⟩), ("write", ⟨2⟩)]) := by decide +kernel
  refine (accepted.atoms_differ_iff onlyDefinitions_holdingAtoms storesWords_holdingAtoms
    storesWords_holdingAtoms (atomsDiffer_holdingAtoms (by decide))).2 ?_
  intro m n bits first second
  exact atomsDiffer_holdingAtoms (by decide) m n bits first.atom second.atom

/-- Two atomic privileges of one commit share their bits. -/
theorem atoms_of_one_commit_share :
    ¬ ∀ before after : Snapshot, before.privileges.OnlyDefinitions → before.privileges.StoresWords →
      after.privileges.StoresWords → before.privileges.AtomsDiffer → Accepts {} before after →
        after.privileges.AtomsDiffer := by
  intro claim
  have accepted : Accepts {} (holdingAtoms ⟨1⟩ [])
      (holdingAtoms ⟨2⟩ [("read", ⟨1⟩), ("write", ⟨1⟩)]) := by decide +kernel
  have differ := claim _ _ onlyDefinitions_holdingAtoms storesWords_holdingAtoms
    storesWords_holdingAtoms (atomsDiffer_holdingAtoms (by decide)) accepted
  have same : "read" = "write" := differ "read" "write" ⟨1⟩ (hasAtom_holdingAtoms (by decide))
    (hasAtom_holdingAtoms (by decide))
  revert same
  decide

/-- A store whose bits were allocated: atomic bits are single bits of their own, the bits of an
aggregate are the union of its members' bits, and the counter is a single bit above all of them. -/
structure Allocated (store : View) (counter : Bits) : Prop where
  definitions : store.OnlyDefinitions
  single : ∀ name bits, store.HasAtom name bits → bits.IsSingle
  differ : store.AtomsDiffer
  unions : ∀ name bits d, store.Owns name bits → (store.child name).definition = .ok d →
    d.isAggregate = true → bits = BitsTable.unionOf store.bitsTable.entries d.members
  counted : store.nextBits = .ok counter
  position : counter.IsSingle
  above : ∀ name bits, store.Owns name bits → bits.value < counter.value

/-- An atomic privilege gets the bits that the counter stood at exactly if its bits are a single bit
and the counter has moved; then it shares no position with a privilege registered before. -/
theorem Accepts.allocated_iff {counter : Bits} (accepted : Accepts settings before after)
    (allocated : Allocated (before.privileges settings) counter)
    (added : Adds settings before after name bits) :
    (bits = counter ↔
      bits.IsSingle ∧ (after.privileges settings).nextBits = .ok counter.next) ∧
      (bits = counter → ∀ other stored, (before.privileges settings).Owns other stored →
        bits.Disjoint stored) := by
  have counted := accepted.counter_above added
  constructor
  · constructor
    · rintro rfl
      exact ⟨allocated.position, counted⟩
    · rintro ⟨single, moved⟩
      have next : bits.next = counter.next := Except.ok.inj (counted.symm.trans moved)
      exact single.eq_of_next allocated.position next
  · rintro rfl other stored owned
    have below := allocated.above other stored owned
    obtain ⟨k, rfl⟩ := allocated.position
    exact Bits.disjoint_of_lt below

theorem allocated_holdingAtoms {next : Bits} {atoms : Entries Bits} (position : next.IsSingle)
    (single : ∀ x ∈ atoms, x.2.IsSingle) (differ : ∀ x ∈ atoms, ∀ y ∈ atoms, x.2 = y.2 → x.1 = y.1)
    (above : ∀ x ∈ atoms, x.2.value < next.value) :
    Allocated (holdingAtoms next atoms).privileges next where
  definitions := onlyDefinitions_holdingAtoms
  single := fun _ _ atom => single _ (mem_of_owns atom.owned)
  differ := atomsDiffer_holdingAtoms differ
  unions := by
    intro name bits d owned named aggregate
    obtain ⟨child, there, -⟩ := owned.state
    obtain ⟨found, -, rfl⟩ := state_holdingAtoms there
    obtain ⟨e, read, plain⟩ := Registration.atomic_of_definitionNode there
    rw [named] at read
    cases read
    rw [plain] at aggregate
    contradiction
  counted := nextBits_holding _ _
  position := position
  above := fun _ _ owned => above _ (mem_of_owns owned)

/-- The second atomic privilege of a store gets the second bit, which the first one has not. -/
theorem allocated_second :
    Accepts {} (holdingAtoms ⟨2⟩ [("read", ⟨1⟩)])
        (holdingAtoms ⟨4⟩ [("read", ⟨1⟩), ("write", ⟨2⟩)]) ∧
      Bits.IsSingle ⟨2⟩ ∧ Bits.Disjoint ⟨2⟩ ⟨1⟩ := by
  have accepted : Accepts {} (holdingAtoms ⟨2⟩ [("read", ⟨1⟩)])
      (holdingAtoms ⟨4⟩ [("read", ⟨1⟩), ("write", ⟨2⟩)]) := by decide +kernel
  have allocated : Allocated (holdingAtoms ⟨2⟩ [("read", ⟨1⟩)]).privileges ⟨2⟩ := by
    apply allocated_holdingAtoms
    · exact ⟨1, rfl⟩
    · intro x member
      rw [List.mem_singleton.1 member]
      exact ⟨0, rfl⟩
    · decide
    · decide
  have fresh : ((holdingAtoms ⟨2⟩ [("read", ⟨1⟩)]).privileges.child "write").state = none :=
    child_holding _ _ _
  have added : Adds {} (holdingAtoms ⟨2⟩ [("read", ⟨1⟩)])
      (holdingAtoms ⟨4⟩ [("read", ⟨1⟩), ("write", ⟨2⟩)]) "write" ⟨2⟩ :=
    ⟨fresh, hasAtom_holdingAtoms (by decide)⟩
  obtain ⟨equal, apart⟩ := accepted.allocated_iff allocated added
  exact ⟨accepted, (equal.1 rfl).1,
    apart rfl "read" ⟨1⟩ (hasAtom_holdingAtoms (by decide)).owned⟩

/-- Bits at two positions, both in use, are accepted while the counter stays. -/
theorem used_positions_accepted :
    ¬ ∀ (before after : Snapshot) (counter : Bits), Allocated before.privileges counter →
      Accepts {} before after → ∀ name bits, Adds {} before after name bits → bits = counter := by
  intro claim
  have accepted : Accepts {} (holdingAtoms ⟨4⟩ [("read", ⟨1⟩), ("write", ⟨2⟩)])
      (holdingAtoms ⟨4⟩ [("read", ⟨1⟩), ("write", ⟨2⟩), ("both", ⟨3⟩)]) := by decide +kernel
  have allocated : Allocated (holdingAtoms ⟨4⟩ [("read", ⟨1⟩), ("write", ⟨2⟩)]).privileges ⟨4⟩ := by
    apply allocated_holdingAtoms
    · exact ⟨2, rfl⟩
    · intro x member
      rcases List.mem_cons.1 member with rfl | member
      · exact ⟨0, rfl⟩
      · rw [List.mem_singleton.1 member]
        exact ⟨1, rfl⟩
    · decide
    · decide
  have fresh : ((holdingAtoms ⟨4⟩ [("read", ⟨1⟩), ("write", ⟨2⟩)]).privileges.child "both").state =
      none := child_holding _ _ _
  have equal := claim _ _ _ allocated accepted "both" ⟨3⟩
    ⟨fresh, hasAtom_holdingAtoms (by decide)⟩
  revert equal
  decide

end Commit

end PrivilegeStore
