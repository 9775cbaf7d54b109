import Mathlib.Control.Monad.Basic
import PrivilegeStore.Proofs.Commit.History
import PrivilegeStore.Proofs.Definition.Alike

/-!
# What registered names mean

An accepted commit may add definitions, let a child become one that was none, and so give a target
to references that had none. All this lies outside of what a name that can be resolved refers to.
So such a name decomposes into the same atomic names afterwards, and closes the same cycles.
-/
namespace PrivilegeStore.Commit

open Aggregation (Retains)

variable {settings : Settings} {before after : Snapshot} {old new : Registry} {name : String}

/-- A definition that was there before is read as one that is alike. -/
theorem Accepts.definition_kept (accepted : Accepts settings before after)
    (isDef : ((before.privileges settings).child name).isDefinition = true) {d : Definition}
    (read : ((before.privileges settings).child name).definition = .ok d) :
    ((after.privileges settings).child name).isDefinition = true ∧
      ∃ e, ((after.privileges settings).child name).definition = .ok e ∧ d.Alike e := by
  obtain ⟨past, found, wasDef⟩ := View.isDefinition_iff.1 isDef
  obtain ⟨present, there, same⟩ := accepted.kept found wasDef
  have path : ((before.privileges settings).child name).path =
    ((after.privileges settings).child name).path := rfl
  refine ⟨?_, View.definition_alike path found there same read⟩
  rw [View.isDefinition_of_state there, ← Node.isDefinition_of_same same]
  exact wasDef

/-- An accepted commit retains every definition, however its members are stored and whatever else it
adds. -/
theorem Accepts.registry_retains (accepted : Accepts settings before after)
    (readBefore : (before.privileges settings).registry = .ok old)
    (readAfter : (after.privileges settings).registry = .ok new) : Retains old new := by
  refine .of_alike fun name d found => ?_
  obtain ⟨isDef, read⟩ := (View.find?_registry readBefore).1 found
  obtain ⟨still, e, there, alike⟩ := accepted.definition_kept isDef read
  exact ⟨e, (View.find?_registry readAfter).2 ⟨still, there⟩, alike⟩

/-- Names that can be resolved before an accepted commit have the same leaf closure after it, and
each of them, declared as a member, closes a cycle after it exactly if it did before. -/
theorem Accepts.meaning_kept (accepted : Accepts settings before after)
    (readBefore : (before.privileges settings).registry = .ok old)
    (readAfter : (after.privileges settings).registry = .ok new) :
    (∀ names leaves, Aggregation.resolve old names = .ok leaves →
      ∃ others, Aggregation.resolve new names = .ok others ∧
        Aggregation.sameNames leaves others = true) ∧
    ∀ name member leaves, Aggregation.resolve old [member] = .ok leaves →
      Aggregation.isCircular new name member = Aggregation.isCircular old name member := by
  have retained := accepted.registry_retains readBefore readAfter
  constructor
  · intro names leaves resolved
    exact retained.resolve_kept resolved
  · intro name member leaves resolved
    exact retained.isCircular_kept
      (Aggregation.resolvable_of_resolve resolved member List.mem_cons_self)

/-- The definition that one aggregate refers to in vain is added. The other aggregate goes on to
decompose into two privileges, and the name that is added is still not reached from it. -/
theorem meaning_kept_beside_dangling :
    let kept := [("read", atom ⟨1⟩), ("write", atom ⟨2⟩), ("rw", aggregate ⟨3⟩ ["read", "write"]),
      ("ghost", aggregate ⟨5⟩ ["gone", "read"])]
    let before := holding ⟨4⟩ kept
    let after := holding ⟨8⟩ (kept ++ [("gone", atom ⟨4⟩)])
    Accepts {} before after ∧ ∃ new others, after.privileges.registry = .ok new ∧
      Aggregation.resolve new [.text "rw"] = .ok others ∧
      Aggregation.sameNames ["read", "write"] others = true ∧
      Aggregation.isCircular new (.text "gone") (.text "rw") = false := by
  intro kept before after
  let old : Registry := [("read", ⟨"read", [], false⟩), ("write", ⟨"write", [], false⟩),
    ("rw", ⟨"rw", [.text "read", .text "write"], false⟩),
    ("ghost", ⟨"ghost", [.text "gone", .text "read"], false⟩)]
  let new : Registry := old ++ [("gone", ⟨"gone", [], false⟩)]
  have accepted : Accepts {} before after := by decide +kernel
  have readBefore : before.privileges.registry = .ok old := by decide +kernel
  have readAfter : after.privileges.registry = .ok new := by decide +kernel
  have resolved : Aggregation.resolve old [.text "rw"] = .ok ["write", "read"] := by
    decide +kernel
  obtain ⟨closures, cycles⟩ := accepted.meaning_kept readBefore readAfter
  obtain ⟨others, found, same⟩ := closures [.text "rw"] _ resolved
  refine ⟨accepted, new, others, readAfter, found, ?_, ?_⟩
  · rw [Aggregation.sameNames_iff] at same ⊢
    intro name
    rw [← same name]
    simp [or_comm]
  · rw [cycles (.text "gone") (.text "rw") _ resolved]
    decide +kernel

end PrivilegeStore.Commit
