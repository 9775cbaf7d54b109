import PrivilegeStore.Proofs.Aggregation.Closure
import PrivilegeStore.Proofs.Definition.Alike

/-!
# Names that keep their members

A registry is retained when each of its names stays registered with the same set of members. Nothing
is supposed of names that are new, so one of them may be the target of a reference that had none
before. Still a walk from a name whose references all have targets never meets a new name: what it
reaches, its leaves and the cycles it would close are the same in both graphs.
-/
namespace PrivilegeStore

theorem NameSet.eq_nil_iff {names : NameSet} : names = [] ↔ ∀ a, ¬ contains names a = true := by
  cases names with
  | nil => simp [contains]
  | cons n rest =>
    simp only [reduceCtorEq, false_iff]
    exact fun none => none n (contains_of_mem List.mem_cons_self)

namespace Aggregation

/-- Names stay registered with the same set of members. -/
structure Retains (old new : Registry) : Prop where
  registered : ∀ a, old.Registered a → new.Registered a
  members : ∀ a, old.Registered a → ∀ b,
    NameSet.contains (new.membersOf a) b = true ↔ NameSet.contains (old.membersOf a) b = true

variable {registry old new : Registry} {a b : Scalar} {leaf : String}

theorem registered_congr (same : a.same b = true) :
    registry.Registered a ↔ registry.Registered b := by
  rw [Registry.Registered, Registry.Registered, Registry.find?_congr same]

theorem registered_of_find? {d : Definition} (found : registry.find? a = some d) :
    registry.Registered a := by
  rw [Registry.Registered, found]
  rfl

theorem registered_of_mem {m : Scalar} (member : m ∈ registry.membersOf a) :
    registry.Registered a := by
  cases found : registry.find? a with
  | none => simp [Registry.membersOf, found] at member
  | some d => exact registered_of_find? found

/-- A registered name without members is atomic. -/
theorem atomic_iff {name : Scalar} :
    registry.Atomic name ↔ registry.Registered name ∧ registry.membersOf name = [] := by
  cases found : registry.find? name with
  | none => simp [Registry.Atomic, Registry.Registered, found]
  | some d =>
    simp [Registry.Atomic, Registry.Registered, found, Registry.membersOf, Definition.isAggregate]

/-- Names that have a closure reach registered names only. -/
theorem resolvable_of_resolve {names : List Scalar} {leaves : List String}
    (resolved : resolve registry names = .ok leaves) : ∀ n ∈ names, Resolvable registry n := by
  have answers := resolve_answers registry names
  rw [resolved] at answers
  exact answers.1

/-- A registry is retained where every definition is found again as one that is alike. -/
theorem Retains.of_alike (kept : ∀ name d, old.find? (.text name) = some d →
    ∃ e, new.find? (.text name) = some e ∧ d.Alike e) : Retains old new := by
  constructor
  · intro a known
    obtain ⟨d, found⟩ := Option.isSome_iff_exists.1 known
    cases a with
    | text name =>
      obtain ⟨e, there, -⟩ := kept name d found
      exact registered_of_find? there
    | _ => cases found
  · intro a known b
    obtain ⟨d, found⟩ := Option.isSome_iff_exists.1 known
    cases a with
    | text name =>
      obtain ⟨e, there, alike⟩ := kept name d found
      rw [Registry.membersOf_of_find? found, Registry.membersOf_of_find? there]
      exact (NameSet.sameAs_iff.1 alike.members b).symm
    | _ => cases found

namespace Retains

variable (retained : Retains old new)

include retained

theorem reaches (reached : Reaches old.membersOf a b) : Reaches new.membersOf a b := by
  refine reached.mono fun m n declared => ?_
  obtain ⟨x, member, -⟩ := NameSet.contains_iff.1 declared
  exact (retained.members m (registered_of_mem member) n).2 declared

/-- From a name that reaches registered names only, the same names are reached. -/
theorem reaches_iff (resolvable : Resolvable old a) :
    Reaches new.membersOf a b ↔ Reaches old.membersOf a b := by
  constructor
  · intro reached
    induction reached with
    | here same => exact .here same
    | member _ declared ih =>
      -- what was reached so far is registered in the old graph, where it has the same members
      rw [retained.members _ (resolvable _ ih)] at declared
      exact .member ih declared
  · exact retained.reaches

theorem resolvable (before : Resolvable old a) : Resolvable new a :=
  fun target reached => retained.registered target
    (before target ((retained.reaches_iff before).1 reached))

theorem atomic_iff (registered : old.Registered a) : new.Atomic a ↔ old.Atomic a := by
  simp only [Aggregation.atomic_iff, registered, retained.registered a registered, true_and,
    NameSet.eq_nil_iff, retained.members a registered]

theorem leafOf_iff (resolvable : Resolvable old a) : LeafOf new a leaf ↔ LeafOf old a leaf := by
  rw [LeafOf, LeafOf, retained.reaches_iff resolvable]
  exact and_congr_right fun reached => retained.atomic_iff (resolvable _ reached)

/-- Names that have a closure keep it. -/
theorem resolve_kept {names : List Scalar} {leaves : List String}
    (resolved : resolve old names = .ok leaves) :
    ∃ others, resolve new names = .ok others ∧ sameNames leaves others = true := by
  have past := resolvable_of_resolve resolved
  obtain ⟨others, found⟩ := resolve_ok (Resolver.sound_empty new) names
    fun n member => retained.resolvable (past n member)
  have left := resolve_answers old names
  have right := resolve_answers new names
  rw [resolved] at left
  rw [resolve, found] at right
  refine ⟨others, found, sameNames_iff.2 fun leaf => ?_⟩
  rw [left.2 leaf, right.2 leaf]
  exact exists_congr fun n => and_congr_right fun member =>
    (retained.leafOf_iff (past n member)).symm

/-- A name that has a closure closes the same cycles as a member. -/
theorem isCircular_kept (resolvable : Resolvable old b) :
    isCircular new a b = isCircular old a b := by
  rw [Bool.eq_iff_iff, isCircular_iff, isCircular_iff]
  exact retained.reaches_iff resolvable

end Retains

end Aggregation

end PrivilegeStore
