import PrivilegeStore.Proofs.Aggregation.Demands
import PrivilegeStore.Proofs.Definition.Access
import PrivilegeStore.Proofs.Definition.Members
import PrivilegeStore.Proofs.Node.Grafting
import PrivilegeStore.Proofs.Registration.Effects

/-!
# Registrations are read back

Registering sorts the members, cuts bits into words and builds the tree anew along the path, while
reading joins words and makes a set of the members, in whatever order they are listed. What a
registration was asked for is what is read after it, and everything else in the snapshot is as it
was, except the counter, which moves on if the bits were taken from it.
-/
namespace PrivilegeStore

open Aggregation (IsUnion)

namespace Registration

/-- A store reads as another one in which a definition was registered under some name, with the bits
of the counter, or with the bits that its members have in the former store. -/
structure ReadsBack (store later : View) (name : String) (members : List String)
    (isAbstract : Bool) (bits : Bits) : Prop where
  definition : ∃ d, later.definition? name = .ok (some d) ∧ d.name = name ∧
    (d.members.Nodup ∧ ∀ a, a ∈ d.members ↔ ∃ m ∈ members, a = .text m) ∧
    d.isAbstract = isAbstract
  stored : (later.child name).bits = .ok bits
  atomic : members = [] → store.nextBits = .ok bits ∧ later.nextBits = .ok bits.next
  aggregate : members ≠ [] → IsUnion store members bits ∧ later.nextBits = store.nextBits
  children : ∀ other, other ≠ name → later.child other = store.child other
  properties : ∀ other, (members = [] → other ≠ Schema.next) →
    later.property? other = store.property? other

namespace Registers

variable {store later : View} {name : String} {texts members : List String} {isAbstract : Bool}
  {bits : Bits}

/-- The new definition is read under its name. -/
theorem definition?_self
    (registers : Registers store later name (texts.map Scalar.text) isAbstract bits)
    (named : name ≠ "") (plain : '/' ∉ name.toList) : later.definition? name =
      .ok (some ⟨name, NameSet.ofList (texts.map Scalar.text), isAbstract⟩) := by
  have there : (later.child name).isDefinition = true :=
    View.isDefinition_iff.2 ⟨_, registers.added, isDefinition_definitionNode⟩
  have own : (later.child name).name = name := View.name_child named plain
  rw [View.definition?, if_pos there, definition_of_definitionNode registers.added, own]
  rfl

/-- What a registration does is what is read back, whatever order the members were put in. -/
theorem readsBack (registers : Registers store later name (texts.map Scalar.text) isAbstract bits)
    (named : name ≠ "") (plain : '/' ∉ name.toList) (readable : store.BitsReadable)
    (same : ∀ m, m ∈ texts ↔ m ∈ members) :
    ReadsBack store later name members isAbstract bits := by
  have none : texts.map Scalar.text = [] ↔ members = [] := by
    rw [List.map_eq_nil_iff, List.eq_nil_iff_forall_not_mem, List.eq_nil_iff_forall_not_mem]
    simp only [same]
  have others (other : String) (different : other ≠ Schema.next) :
      later.property? other = store.property? other := registers.properties other different.symm
  refine ⟨⟨_, registers.definition?_self named plain, rfl, ⟨NameSet.nodup_ofList _, ?_⟩, rfl⟩,
    bits_of_definitionNode registers.added, ?_, ?_,
    fun other different => registers.others other different.symm, ?_⟩
  · simp only [NameSet.mem_ofList_texts, same, implies_true]
  · intro empty
    rcases registers.allocated with ⟨-, read, moved⟩ | ⟨given, -, -⟩
    · refine ⟨read, ?_⟩
      rw [View.nextBits, moved]
      exact Bits.ofValue_stored bits.next
    · exact absurd (none.2 empty) given
  · intro given
    rcases registers.allocated with ⟨empty, -, -⟩ | ⟨-, union, kept⟩
    · exact absurd (none.1 empty) given
    · rw [BitsIndex.bitsOf_of_no_fault _ readable.clean] at union
      have held := Aggregation.isUnion_unionOf texts readable.clean
      rw [Except.ok.inj union] at held
      refine ⟨fun position => (held position).trans ?_, ?_⟩
      · simp only [same]
      · rw [View.nextBits, View.nextBits, kept]
  · intro other untouched
    by_cases counter : other = Schema.next
    · subst counter
      rcases registers.allocated with ⟨empty, -, -⟩ | ⟨-, -, kept⟩
      · exact absurd rfl (untouched (none.1 empty))
      · exact kept
    · exact others other counter

end Registers

/-- Registering in a store whose bits and counter can be read succeeds for every name without
slashes and every list of members, be they registered or not. What was registered is read back, and
no node apart from the privileges node has changed. -/
theorem register_readsBack {s : Snapshot} {settings : Settings} {counter : Bits}
    (present : (s.privileges settings).isPresent = true)
    (readable : (s.privileges settings).BitsReadable)
    (counted : (s.privileges settings).nextBits = .ok counter) {name : String}
    (named : name ≠ "") (plain : '/' ∉ name.toList) (members : List String) (isAbstract : Bool) :
    ∃ after bits, register s name (members.map Scalar.text) isAbstract settings =
        .ok (after, bits) ∧
      ReadsBack (s.privileges settings) (after.privileges settings) name members isAbstract bits ∧
      ∀ path, Path.Apart settings.privilegesPath path → after.node? path = s.node? path := by
  obtain ⟨node, state⟩ := Option.isSome_iff_exists.1 present
  obtain ⟨texts, ordered, same⟩ := NameSet.sorted_texts members
  obtain ⟨bits, moved, allocated⟩ :=
    allocate_ok readable.clean counted node (texts.map Scalar.text)
  have done : register s name (members.map Scalar.text) isAbstract settings =
      .ok (s.put settings.privilegesPath
        (moved.setChild name (definitionNode bits (texts.map Scalar.text) isAbstract)), bits) :=
    register_eq state ordered allocated
  refine ⟨_, bits, done, ?_, fun path apart => Snapshot.node?_put_of_apart apart s _⟩
  obtain ⟨inOrder, sorted, registers⟩ := register_spec done
  rw [ordered] at sorted
  cases sorted
  exact registers.readsBack named plain readable same

open Commit (holding atom)

/-- A name that is taken is registered again, as an abstract aggregate of itself, a name given twice
and one that nobody has. -/
theorem readsBack_of_taken_name :
    let s := holding ⟨4⟩ [("read", atom ⟨1⟩), ("write", atom ⟨2⟩)]
    let members := ["write", "read", "ghost", "read"]
    s.privileges.BitsReadable ∧ ∃ after,
      register s "write" (members.map Scalar.text) true = .ok (after, ⟨3⟩) ∧
        ReadsBack s.privileges after.privileges "write" members true ⟨3⟩ ∧
        ∀ path, Path.Apart ({} : Settings).privilegesPath path →
          after.node? path = s.node? path := by
  intro s members
  have present : s.privileges.isPresent = true := rfl
  have readable : s.privileges.BitsReadable := View.bitsReadable_iff.2 rfl
  have counted : s.privileges.nextBits = .ok ⟨4⟩ := rfl
  have named : "write" ≠ "" := by decide
  have plain : '/' ∉ "write".toList := by decide
  obtain ⟨after, bits, done, reads, apart⟩ :=
    register_readsBack present readable counted named plain members true
  have run : (register s "write" (members.map Scalar.text) true).map Prod.snd = .ok ⟨3⟩ := rfl
  rw [done] at run
  cases run
  exact ⟨readable, after, done, reads, apart⟩

end Registration

end PrivilegeStore
