import Mathlib.Data.List.Chain
import PrivilegeStore.Proofs.Commit.Acceptance

/-!
# What no commit takes back

An accepted commit keeps every definition with all that is below it, every property of the store but
the counter with its value, and the counter itself once there is one. Sameness of nodes and of
values is transitive, so what is kept by each commit of a run is kept from any snapshot of the run
to any later one, whatever else they hold and also where there is no store.
-/
namespace PrivilegeStore

namespace View

/-- Definitions and properties of a store are found unchanged in another one, up to the value of the
counter. -/
structure KeptIn (store later : View) : Prop where
  definitions : ∀ name old, (store.child name).state = some old → old.isDefinition = true →
    ∃ new, (later.child name).state = some new ∧ old.same new = true
  properties : ∀ name value, name ≠ Schema.next → store.property? name = some value →
    ∃ kept, later.property? name = some kept ∧ value.same kept = true
  counter : (store.property? Schema.next).isSome = true →
    (later.property? Schema.next).isSome = true

/-- What is kept in a store that is kept itself is kept. -/
theorem KeptIn.trans {first second third : View} (ab : first.KeptIn second)
    (bc : second.KeptIn third) : first.KeptIn third := by
  constructor
  · intro name old found isDef
    obtain ⟨middle, there, same⟩ := ab.definitions name old found isDef
    rw [Node.isDefinition_of_same same] at isDef
    obtain ⟨new, still, equal⟩ := bc.definitions name middle there isDef
    exact ⟨new, still, Node.same_trans same equal⟩
  · intro name value other found
    obtain ⟨middle, there, same⟩ := ab.properties name value other found
    obtain ⟨kept, still, equal⟩ := bc.properties name middle other there
    exact ⟨kept, still, Value.same_trans same equal⟩
  · exact fun present => bc.counter (ab.counter present)

end View

namespace Commit

variable {settings : Settings} {before after : Snapshot}

/-- An accepted commit keeps the store. -/
theorem Accepts.keptIn (accepted : Accepts settings before after) :
    (before.privileges settings).KeptIn (after.privileges settings) := by
  constructor
  · intro name old found isDef
    exact accepted.kept found isDef
  · intro name value other found
    obtain ⟨kept, there, same | ⟨next, -⟩⟩ := accepted.property_kept found
    · exact ⟨kept, there, Value.same_iff.2 same⟩
    · exact absurd next other
  · intro present
    obtain ⟨value, found⟩ := Option.isSome_iff_exists.1 present
    obtain ⟨later, there, -⟩ := accepted.property_kept found
    rw [there]
    rfl

/-- In a run of accepted commits every store is kept in all later ones. -/
theorem kept_all_along {run : List Snapshot} (accepted : run.IsChain (Accepts settings)) :
    run.Pairwise fun s t => (s.privileges settings).KeptIn (t.privileges settings) := by
  have each : run.IsChain fun s t => (s.privileges settings).KeptIn (t.privileges settings) :=
    accepted.imp fun _ _ => Accepts.keptIn
  have : Trans (fun s t : Snapshot => (s.privileges settings).KeptIn (t.privileges settings))
      (fun s t : Snapshot => (s.privileges settings).KeptIn (t.privileges settings))
      (fun s t : Snapshot => (s.privileges settings).KeptIn (t.privileges settings)) :=
    ⟨View.KeptIn.trans⟩
  exact List.isChain_iff_pairwise.1 each

/-- A store is founded, then a privilege is registered in it and another one after that. -/
theorem kept_after_founding :
    let run := [{}, holding ⟨1⟩ [], holding ⟨2⟩ [("read", atom ⟨1⟩)],
      holding ⟨4⟩ [("read", atom ⟨1⟩), ("write", atom ⟨2⟩)]]
    run.IsChain (Accepts {}) ∧ run.Pairwise fun s t => s.privileges.KeptIn t.privileges := by
  intro run
  have accepted : run.IsChain (Accepts {}) := by
    refine .cons_cons ?_ (.cons_cons ?_ (.cons_cons ?_ (.singleton _))) <;> decide +kernel
  exact ⟨accepted, kept_all_along accepted⟩

end Commit

end PrivilegeStore
