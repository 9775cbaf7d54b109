import Mathlib.Control.Monad.Basic
import PrivilegeStore.Proofs.Bits.Sameness
import PrivilegeStore.Proofs.Commit.Allocation
import PrivilegeStore.Proofs.Commit.Independence
import PrivilegeStore.Proofs.Commit.Meaning

/-!
# What can still be read after an accepted commit

A definition that is kept is read from a node that is the same, and one that is added has been read
to admit it. Two things come in unread: a child that was no definition and becomes one, and a
counter that is added to a store without one. An integer that is replaced by the same number of
another type makes no change, but is no longer read as bits.
-/
namespace PrivilegeStore

namespace View

/-- The definitions of a store, their bits and its counter can be read. -/
structure Readable (store : View) : Prop where
  definition : ∀ name, (store.child name).isDefinition = true →
    ∃ d, (store.child name).definition = .ok d
  bits : store.BitsReadable
  counter : ∃ bits, store.nextBits = .ok bits

/-- A property has not been retyped from one view to another. -/
def KeepsType (v w : View) (name : String) : Prop :=
  ∀ x y, v.property? name = some x → w.property? name = some y → ¬ x.Retyped y

/-- A store is readable where reading its registry, its bits table and its counter succeeds. -/
theorem Readable.of_reads {store : View} {registry : Registry} {next : Bits}
    (read : store.registry = .ok registry) (clean : store.bitsTable.fault = none)
    (counted : store.nextBits = .ok next) : store.Readable where
  definition _ isDef := definition_of_registry read isDef
  bits := bitsReadable_iff.2 clean
  counter := ⟨next, counted⟩

variable {v w : View} {a b : Node}

/-- Of two same nodes, the one has bits that can be read if the other has. -/
theorem bits_ok_of_same (ha : v.state = some a) (hb : w.state = some b) (same : a.same b = true)
    (typed : v.KeepsType w Schema.bits) (read : ∃ bits, v.bits = .ok bits) :
    ∃ bits, w.bits = .ok bits := by
  obtain ⟨bits, read⟩ := read
  rcases property?_cases ha hb same Schema.bits with ⟨-, right⟩ | ⟨x, y, left, right, equal⟩
  · exact ⟨.empty, by rw [View.bits, right, Bits.ofValue?]⟩
  · rw [View.bits, left] at read
    rw [View.bits, right]
    exact Bits.ofValue_of_same equal read (typed x y left right)

end View

namespace Commit

variable {settings : Settings} {before after : Snapshot} {name : String}

/-- A definition can be read unless a child stood in its place that was none. -/
theorem Accepts.definition_ok (accepted : Accepts settings before after)
    (readable : (before.privileges settings).isPresent = true →
      (before.privileges settings).Readable)
    (isDef : ((after.privileges settings).child name).isDefinition = true)
    (past : ∀ old, ((before.privileges settings).child name).state = some old →
      old.isDefinition = true) :
    (∃ d, ((after.privileges settings).child name).definition = .ok d) ∧
      (((before.privileges settings).child name).KeepsType ((after.privileges settings).child name)
          Schema.bits →
        ∃ bits, ((after.privileges settings).child name).bits = .ok bits) := by
  cases found : ((before.privileges settings).child name).state with
  | none =>
    obtain ⟨child, there, isDef⟩ := View.isDefinition_iff.1 isDef
    obtain ⟨registry, definition, bits, -, named, read, -⟩ :=
      accepted.admissible found there isDef
    exact ⟨⟨definition, named⟩, fun _ => ⟨bits, read⟩⟩
  | some old =>
    have wasDef := past old found
    have known := readable (present_of_child found)
    have stood := View.isDefinition_iff.2 ⟨old, found, wasDef⟩
    obtain ⟨d, named⟩ := known.definition name stood
    obtain ⟨-, e, there, -⟩ := accepted.definition_kept stood named
    obtain ⟨new, state, same⟩ := accepted.kept found wasDef
    exact ⟨⟨e, there⟩, fun typed => View.bits_ok_of_same found state same typed
      (known.bits name stood)⟩

/-- The counter can be read unless the commit added it, and added no atomic privilege with it. -/
theorem Accepts.counter_ok (accepted : Accepts settings before after)
    (readable : (before.privileges settings).isPresent = true →
      (before.privileges settings).Readable)
    (known : ((before.privileges settings).property? Schema.next).isSome = true ∨
      (after.privileges settings).property? Schema.next = none ∨
      ∃ name bits, Adds settings before after name bits)
    (typed : (before.privileges settings).KeepsType (after.privileges settings) Schema.next) :
    ∃ bits, (after.privileges settings).nextBits = .ok bits := by
  rcases known with stored | missing | ⟨name, bits, added⟩
  · obtain ⟨value, found⟩ := Option.isSome_iff_exists.1 stored
    obtain ⟨bits, read⟩ := (readable (present_of_property found)).counter
    obtain ⟨later, there, same | ⟨-, counter, -, moved⟩⟩ := accepted.property_kept found
    · rw [View.nextBits, found] at read
      rw [View.nextBits, there]
      exact Bits.ofValue_of_same same read (typed value later found there)
    · exact ⟨counter.next, moved⟩
  · exact ⟨.empty, by rw [View.nextBits, missing, Bits.ofValue?]⟩
  · exact ⟨bits.next, accepted.counter_above added⟩

/-- What can be read of a store after an accepted commit, if all of it could be before. -/
theorem Accepts.readable_after (accepted : Accepts settings before after)
    (readable : (before.privileges settings).isPresent = true →
      (before.privileges settings).Readable) :
    (∀ name, ((after.privileges settings).child name).isDefinition = true →
      (∀ old, ((before.privileges settings).child name).state = some old →
        old.isDefinition = true) →
      (∃ d, ((after.privileges settings).child name).definition = .ok d) ∧
        (((before.privileges settings).child name).KeepsType
            ((after.privileges settings).child name) Schema.bits →
          ∃ bits, ((after.privileges settings).child name).bits = .ok bits)) ∧
    (((before.privileges settings).property? Schema.next).isSome = true ∨
        (after.privileges settings).property? Schema.next = none ∨
        (∃ name bits, Adds settings before after name bits) →
      (before.privileges settings).KeepsType (after.privileges settings) Schema.next →
        ∃ bits, (after.privileges settings).nextBits = .ok bits) :=
  ⟨fun _ isDef past => accepted.definition_ok readable isDef past,
    fun known typed => accepted.counter_ok readable known typed⟩

/-- One definition is kept, one is added, and the counter moves on: all of it can be read. -/
theorem readable_after_second :
    let before := holding ⟨2⟩ [("read", atom ⟨1⟩)]
    let after := holding ⟨4⟩ [("read", atom ⟨1⟩), ("write", atom ⟨2⟩)]
    Accepts {} before after ∧ before.privileges.Readable ∧
      (∃ bits, (after.privileges.child "read").bits = .ok bits) ∧
      (∃ d, (after.privileges.child "write").definition = .ok d) ∧
      ∃ bits, after.privileges.nextBits = .ok bits := by
  intro before after
  have accepted : Accepts {} before after := by decide +kernel
  have registered : before.privileges.registry = .ok [("read", ⟨"read", [], false⟩)] := by
    decide +kernel
  have counted : before.privileges.nextBits = .ok ⟨2⟩ := by decide +kernel
  have readable : before.privileges.Readable :=
    .of_reads registered (by decide +kernel) counted
  obtain ⟨definitions, counter⟩ := accepted.readable_after fun _ => readable
  have kept : ∀ old, (before.privileges.child "read").state = some old →
      old.isDefinition = true := by
    intro old found
    cases found
    decide +kernel
  have fresh : ∀ old, (before.privileges.child "write").state = some old →
      old.isDefinition = true := nofun
  -- what is stored as a list is no integer
  have bitsTyped : (before.privileges.child "read").KeepsType (after.privileges.child "read")
      Schema.bits := by
    rintro x y found - ⟨-, ⟨n, rfl⟩, -⟩
    cases found
  have counterTyped : before.privileges.KeepsType after.privileges Schema.next := by
    rintro x y found - ⟨-, ⟨n, rfl⟩, -⟩
    cases found
  exact ⟨accepted, readable, (definitions "read" (by decide +kernel) kept).2 bitsTyped,
    (definitions "write" (by decide +kernel) fresh).1,
    counter (.inl (by decide +kernel)) counterTyped⟩

/-- A counter that is added is not read, so it may be anything. -/
theorem added_counter_not_read :
    ¬ ∀ before after : Snapshot,
      (before.privileges.isPresent = true → before.privileges.Readable) →
        Accepts {} before after → after.privileges.Readable := by
  intro claim
  let store (properties : Entries Value) : Snapshot :=
    Snapshot.put {} ({} : Settings).privilegesPath
      ⟨(Schema.primaryType, .text Schema.privilegesType) :: properties, []⟩
  have registered : (store []).privileges.registry = .ok [] := by decide +kernel
  have uncounted : (store []).privileges.nextBits = .ok .empty := by decide +kernel
  have readable : (store []).privileges.Readable :=
    .of_reads registered (by decide +kernel) uncounted
  have accepted : Accepts {} (store []) (store [(Schema.next, .bool true)]) := by decide +kernel
  obtain ⟨bits, read⟩ := (claim _ _ (fun _ => readable) accepted).counter
  cases read

end Commit

end PrivilegeStore
