import PrivilegeStore.Proofs.Aggregation.Eligibility
import PrivilegeStore.Proofs.Commit.Addition
import PrivilegeStore.Proofs.Commit.Counting
import PrivilegeStore.Proofs.Definition.Access
import PrivilegeStore.Proofs.Definition.Members
import PrivilegeStore.Proofs.Registration.Effects

/-!
# What registration proposes

Registration judges nothing, and a commit is judged without knowing how it came about. In a store
that accepted commits have made of a new one the two agree. The counter is above all bits, so that
an atomic privilege gets bits that are not in use and forces the counter to where registration moves
it. The graph is linked and no registered bits are empty, so that an aggregate of registered members
gets the bits it should have. What is left are the terms that depend on the request: an aggregate
needs two members that differ, all of them registered, and must decompose otherwise than every
registered one.

A property that differs from itself keeps the store from ever changing again, also by registration.
-/
namespace PrivilegeStore

namespace View

/-- Definitions are stored well, and so is the counter. -/
structure Regular (store : View) : Prop extends WellStored store, StoredInWords store

end View

namespace Commit

open Aggregation (Admissible Linked Novel)

variable {settings : Settings} {s start : Snapshot} {name : String} {node moved : Node}
  {bits next counter : Bits} {registry : Registry} {texts : List String} {isAbstract : Bool}

theorem addsDefinition_put {members : NameSet}
    (present : ((s.privileges settings).property? Schema.next).isSome = true)
    (free : Namespace.isReserved settings.reservedPrefixes name = false)
    (fresh : ((s.privileges settings).child name).state = none)
    (state : (s.privileges settings).state = some node)
    (allocated : Registration.allocate (s.privileges settings) node members = .ok (bits, moved)) :
    AddsDefinition settings s
      (s.put settings.privilegesPath
        (moved.setChild name (Registration.definitionNode bits members isAbstract))) name
      (Registration.definitionNode bits members isAbstract) := by
  have registers := Registration.registers_of_allocate state allocated name isAbstract
  have put : (s.put settings.privilegesPath (moved.setChild name
      (Registration.definitionNode bits members isAbstract))).privileges settings =
        ⟨settings.privilegesPath, some (moved.setChild name
          (Registration.definitionNode bits members isAbstract))⟩ := Snapshot.view_put _ _ _
  constructor
  · rw [View.isPresent, state]
    rfl
  · exact free
  · exact Registration.isDefinition_definitionNode
  · exact fresh
  · rw [put]
    exact registers.added
  · intro other different
    rw [put]
    exact congrArg View.state (registers.others other different)
  · intro other different
    rw [put]
    exact registers.properties other different
  · rw [put]
    rcases registers.allocated with ⟨-, read, now⟩ | ⟨-, -, same⟩
    · obtain ⟨old, was⟩ := Option.isSome_iff_exists.1 present
      refine .inr ⟨old, _, bits, was, now, read, ?_⟩
      exact (congrArg Bits.ofValue? now).trans (Bits.ofValue_stored bits.next)
    · exact .inl same

section Proposed

variable (regular : (s.privileges settings).Regular)
  (read : (s.privileges settings).registry = .ok registry)
  (counted : (s.privileges settings).CountedBy counter)
  (fresh : ((s.privileges settings).child name).state = none)

include regular read counted fresh

/-- An aggregate of a free name with the union of its members' bits is admissible exactly if two of
its members differ, all are registered and they are novel. -/
theorem admissible_union_iff (linked : Linked registry) {definition : Definition}
    (own : definition.name = name)
    (declared : definition.members = NameSet.ofList (texts.map Scalar.text)) (given : texts ≠ [])
    (storeAfter : View) :
    Admissible registry (s.privileges settings).bitsTable.entries storeAfter definition
        (BitsTable.unionOf (s.privileges settings).bitsTable.entries (texts.map Scalar.text)) ↔
      (∃ m ∈ texts, ∃ n ∈ texts, m ≠ n) ∧ (∀ m ∈ texts, registry.Registered (.text m)) ∧
        Novel registry (texts.map Scalar.text) := by
  have clean := regular.fault_bitsTable
  have same : ∀ a, a ∈ texts.map Scalar.text ↔ a ∈ definition.members := by
    intro a
    rw [declared, NameSet.mem_ofList_map]
  have unknown : registry.find? (.text definition.name) = none := by
    rw [own]
    exact View.find?_eq_none read fresh
  have ordered : ∃ inOrder, NameSet.sorted definition.members = .ok inOrder := by
    obtain ⟨inOrder, sorted, -⟩ := NameSet.sorted_texts texts
    exact ⟨_, by rw [declared, sorted]⟩
  have union : BitsTable.unionOf (s.privileges settings).bitsTable.entries
      (texts.map Scalar.text) =
        BitsTable.unionOf (s.privileges settings).bitsTable.entries definition.members :=
    BitsTable.unionOf_congr same
  have terms := Aggregation.aggregateTerms_iff linked
    (fun entry member => View.find?_of_mem_registry read member) unknown ordered union
  constructor
  · rintro ⟨-, ⟨none, -⟩ | ⟨enough, holds⟩⟩
    · rw [declared, NameSet.ofList_eq_nil, List.map_eq_nil_iff] at none
      exact absurd none given
    · obtain ⟨registered, novel⟩ := terms.1 holds
      rw [declared] at enough
      refine ⟨NameSet.two_le_ofList_texts.1 enough, fun m member => ?_,
        (Aggregation.novel_congr same).2 novel⟩
      exact registered _ ((same _).1 (List.mem_map_of_mem member))
  · rintro ⟨plural, registered, novel⟩
    have enough : 2 ≤ definition.members.length := by
      rw [declared]
      exact NameSet.two_le_ofList_texts.2 plural
    have known : ∀ m ∈ definition.members, registry.Registered m := by
      intro m member
      obtain ⟨text, there, rfl⟩ := List.mem_map.1 ((same m).2 member)
      exact registered text there
    refine ⟨?_, .inr ⟨enough, terms.2 ⟨known, (Aggregation.novel_congr same).1 novel⟩⟩⟩
    -- the union is not empty, for the bits of a registered member are not
    obtain ⟨m, member, -⟩ := plural
    obtain ⟨bits, owned⟩ := regular.owns ((View.registered_iff read).1 (registered m member))
    exact BitsTable.isEmpty_unionOf (List.mem_map_of_mem member)
      ((View.find?_bitsTable clean).2 owned) (counted.carried m bits owned)

variable (free : Namespace.isReserved settings.reservedPrefixes name = false) (named : name ≠ "")
  (plain : '/' ∉ name.toList)

include free named plain

/-- What registration proposes is accepted exactly if the definition is admissible that is read back
from it. -/
theorem accepts_put_iff (isAbstract : Bool)
    (state : (s.privileges settings).state = some node)
    (allocated : Registration.allocate (s.privileges settings) node (texts.map Scalar.text) =
      .ok (bits, moved)) :
    let after := s.put settings.privilegesPath (moved.setChild name
      (Registration.definitionNode bits (texts.map Scalar.text) isAbstract))
    ∃ definition : Definition, definition.name = name ∧
      definition.members = NameSet.ofList (texts.map Scalar.text) ∧
      (Accepts settings s after ↔ (s.privileges settings).WithoutNan ∧
        Admissible registry (s.privileges settings).bitsTable.entries (after.privileges settings)
          definition bits) := by
  intro after
  have adds : AddsDefinition settings s after name
      (Registration.definitionNode bits (texts.map Scalar.text) isAbstract) :=
    addsDefinition_put counted.present free fresh state allocated
  have own : ((after.privileges settings).child name).name = name := View.name_child named plain
  have back := Registration.definition_of_definitionNode adds.added
  rw [own] at back
  refine ⟨⟨name, NameSet.ofList (texts.map Scalar.text), isAbstract⟩, rfl, rfl, ?_⟩
  exact adds.accepts_iff read regular.fault_bitsTable back
      (Registration.bits_of_definitionNode adds.added)

/-- A proposed atomic privilege is accepted. -/
theorem accepts_atomic_iff (some : counter.isEmpty = false) (isAbstract : Bool) :
    ∃ after, Registration.register s name [] isAbstract settings = .ok (after, counter) ∧
      (Accepts settings s after ↔ (s.privileges settings).WithoutNan) := by
  obtain ⟨old, found⟩ := Option.isSome_iff_exists.1 counted.present
  obtain ⟨node, state, -⟩ := Option.bind_eq_some_iff.1 found
  have allocated : Registration.allocate (s.privileges settings) node
      (([] : List String).map Scalar.text) =
        .ok (counter, node.setProperty Schema.next counter.next.stored) :=
    Registration.allocate_nil counted.read
  obtain ⟨definition, -, members, accepts⟩ :=
    accepts_put_iff regular read counted fresh free named plain isAbstract state allocated
  refine ⟨_, Registration.register_eq state rfl allocated, accepts.trans (and_iff_left ?_)⟩
  refine ⟨some, .inl ⟨members, ?_, ?_⟩⟩
  · -- all bits in the store are below the counter, so its own are not among them
    refine View.ownersOf_bitsTable fun other stored owned equal => ?_
    have below := counted.above other stored owned
    rw [equal] at below
    omega
  · rw [View.nextBits, Snapshot.privileges, Snapshot.view_put]
    simp [View.property?, Node.property?_setProperty, Bits.ofValue?, Bits.ofValue_stored]

/-- A proposed aggregate is accepted exactly if two of its members differ, all are registered and
they are novel. -/
theorem accepts_aggregate_iff (linked : Linked registry) {members : List String}
    (given : members ≠ []) (isAbstract : Bool) :
    ∃ after bits,
      Registration.register s name (members.map Scalar.text) isAbstract settings =
        .ok (after, bits) ∧
      (Accepts settings s after ↔ (s.privileges settings).WithoutNan ∧
        (∃ m ∈ members, ∃ n ∈ members, m ≠ n) ∧ (∀ m ∈ members, registry.Registered (.text m)) ∧
          Novel registry (members.map Scalar.text)) := by
  obtain ⟨old, found⟩ := Option.isSome_iff_exists.1 counted.present
  obtain ⟨node, state, -⟩ := Option.bind_eq_some_iff.1 found
  obtain ⟨texts, ordered, same⟩ := NameSet.sorted_texts members
  obtain ⟨m, member⟩ := List.exists_mem_of_ne_nil members given
  have some : texts ≠ [] := List.ne_nil_of_mem ((same m).2 member)
  have allocated : Registration.allocate (s.privileges settings) node (texts.map Scalar.text) =
      .ok (BitsTable.unionOf (s.privileges settings).bitsTable.entries (texts.map Scalar.text),
        node) :=
    Registration.allocate_of_members (by simpa using some) regular.fault_bitsTable
  obtain ⟨definition, own, declared, accepts⟩ :=
    accepts_put_iff regular read counted fresh free named plain isAbstract state allocated
  refine ⟨_, _, Registration.register_eq state ordered allocated,
    accepts.trans (and_congr_right' ?_)⟩
  rw [admissible_union_iff regular read counted fresh linked own declared some]
  have listed : ∀ a, a ∈ texts.map Scalar.text ↔ a ∈ members.map Scalar.text := by
    intro a
    simp only [List.mem_map, same]
  simp only [same, Aggregation.novel_congr listed]

end Proposed

theorem regular_putStore :
    ((start.putStore next settings).privileges settings).Regular :=
  ⟨wellStored_putStore, storedInWords_putStore.counter⟩

namespace Run

/-- What registration proposes in a store that accepted commits have made of a new one is accepted
exactly if no property of the store differs from itself and the members, if there are any, are
registered, not all the same, and decompose otherwise than every registered aggregate. -/
theorem accepts_register_iff (run : Run settings start next View.Regular s)
    (some : next.isEmpty = false) (named : name ≠ "") (plain : '/' ∉ name.toList)
    (free : Namespace.isReserved settings.reservedPrefixes name = false)
    (fresh : ((s.privileges settings).child name).state = none) (members : List String)
    (isAbstract : Bool) :
    ∃ registry after bits, (s.privileges settings).registry = .ok registry ∧
      Registration.register s name (members.map Scalar.text) isAbstract settings =
        .ok (after, bits) ∧
      (Accepts settings s after ↔ (s.privileges settings).WithoutNan ∧
        (members = [] ∨ (∃ m ∈ members, ∃ n ∈ members, m ≠ n) ∧
          (∀ m ∈ members, registry.Registered (.text m)) ∧
            Novel registry (members.map Scalar.text))) := by
  have regular : (s.privileges settings).Regular := run.kept regular_putStore
  obtain ⟨registry, read, coherent⟩ := (run.mono fun _ kept => kept.toWellStored).history.coherent
  obtain ⟨counter, counted, reached⟩ :=
    (run.mono fun _ kept => kept.toStoredInWords).countedBy
  cases members with
  | nil =>
    have filled : counter.isEmpty = false := by
      rw [Bits.isEmpty, beq_eq_false_iff_ne] at some ⊢
      omega
    obtain ⟨after, registered, accepts⟩ :=
      accepts_atomic_iff regular read counted fresh free named plain filled isAbstract
    exact ⟨registry, after, counter, read, registered, by simpa using accepts⟩
  | cons m rest =>
    obtain ⟨after, bits, registered, accepts⟩ :=
      accepts_aggregate_iff regular read counted fresh free named plain coherent.linked
        (List.cons_ne_nil m rest) isAbstract
    exact ⟨registry, after, bits, read, registered, by simpa using accepts⟩

end Run

theorem regular_holding {children : Entries Node}
    (written : ∀ entry ∈ children, ∃ (bits : Bits) (names : List String),
      entry.2 = Registration.definitionNode bits (names.map Scalar.text) false) :
    (holding next children).privileges.Regular :=
  have stored := wellStored_holding written
  ⟨stored, (storedInWords_holding stored).counter⟩

/-- An aggregate of two atomic privileges is proposed with one of them named twice. -/
theorem accepts_register_both :
    let s := holding ⟨4⟩ [("read", atom ⟨1⟩), ("write", atom ⟨2⟩)]
    let members := ["write", "read", "write"]
    Run {} {} ⟨1⟩ View.Regular s ∧
      ∃ after bits, Registration.register s "both" (members.map Scalar.text) true =
        .ok (after, bits) ∧ Accepts {} s after := by
  intro s members
  have none : Run {} {} ⟨1⟩ View.Regular (holding ⟨1⟩ []) := .founded
  have one : Run {} {} ⟨1⟩ View.Regular (holding ⟨2⟩ [("read", atom ⟨1⟩)]) := by
    refine none.committed (by decide +kernel) (regular_holding ?_)
    simp only [List.forall_mem_cons]
    exact ⟨⟨⟨1⟩, [], rfl⟩, by simp⟩
  have two : Run {} {} ⟨1⟩ View.Regular s := by
    refine one.committed (by decide +kernel) (regular_holding ?_)
    simp only [List.forall_mem_cons]
    exact ⟨⟨⟨1⟩, [], rfl⟩, ⟨⟨2⟩, [], rfl⟩, by simp⟩
  refine ⟨two, ?_⟩
  have fresh : (s.privileges.child "both").state = .none := child_holding _ _ _
  obtain ⟨registry, after, bits, read, registered, accepts⟩ :=
    two.accepts_register_iff rfl (by decide) (by decide) (by decide +kernel) fresh members true
  have known : s.privileges.registry.toOption = some [("read", ⟨"read", [], false⟩),
      ("write", ⟨"write", [], false⟩)] := by decide +kernel
  rw [read] at known
  cases known
  refine ⟨after, bits, registered, accepts.2 ⟨withoutNan_holding, .inr ⟨by decide, by decide, ?_⟩⟩⟩
  intro other d found aggregate
  have atomic : ∀ entry ∈ [("read", (⟨"read", [], false⟩ : Definition)),
      ("write", ⟨"write", [], false⟩)], entry.2.isAggregate = false := by decide
  rw [atomic (other, d) (Entries.mem_of_find? found)] at aggregate
  contradiction

/-- A new store with a property that differs from itself. -/
def holdingNan : Snapshot :=
  (holding ⟨1⟩ []).update ({} : Settings).privilegesPath
    (·.setProperty "x" (.scalar (.float .nan)))

theorem regular_holdingNan : holdingNan.privileges.Regular := by
  have none : ∀ name child, (holdingNan.privileges.child name).state ≠ some child := by
    intro name child there
    cases there
  refine ⟨⟨?_, ?_, ?_⟩, fun value found => ?_⟩
  · exact fun name child there => absurd there (none name child)
  · exact fun name child there => absurd there (none name child)
  · exact fun name child there => absurd there (none name child)
  · have stored : holdingNan.privileges.property? Schema.next = some (Bits.stored ⟨1⟩) := rfl
    rw [stored] at found
    cases found
    exact Bits.isWordList_stored _

/-- Beside a property that differs from itself not even an atomic privilege is accepted as
registration proposes it. -/
theorem proposal_beside_nan_refused :
    ¬ ∀ (s : Snapshot) (name : String) (members : List String) (isAbstract : Bool),
      Run {} {} ⟨1⟩ View.Regular s → name ≠ "" → '/' ∉ name.toList →
      Namespace.isReserved ({} : Settings).reservedPrefixes name = false →
      (s.privileges.child name).state = none →
      ∃ registry after bits, s.privileges.registry = .ok registry ∧
        Registration.register s name (members.map Scalar.text) isAbstract = .ok (after, bits) ∧
        (Accepts {} s after ↔ members = [] ∨ (∃ m ∈ members, ∃ n ∈ members, m ≠ n) ∧
          (∀ m ∈ members, registry.Registered (.text m)) ∧
            Novel registry (members.map Scalar.text)) := by
  intro claim
  have none : Run {} {} ⟨1⟩ View.Regular (holding ⟨1⟩ []) := .founded
  have run : Run {} {} ⟨1⟩ View.Regular holdingNan :=
    none.committed (by decide +kernel) regular_holdingNan
  obtain ⟨registry, after, bits, -, registered, accepts⟩ :=
    claim holdingNan "read" [] false run (by decide) (by decide) (by decide +kernel) rfl
  have refused : (Registration.register holdingNan "read").toOption.all
      (fun proposal => !decide (Accepts {} holdingNan proposal.1)) = true := by decide +kernel
  rw [show Registration.register holdingNan "read" = .ok (after, bits) from registered] at refused
  have accepted : Accepts {} holdingNan after := accepts.2 (.inl rfl)
  simp [Except.toOption, accepted] at refused

end Commit

end PrivilegeStore
